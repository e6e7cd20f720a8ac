import SecureCore.Paging.Walk
import SecureCore.System.Readers
import SecureCore.System.Sample
import SecureCore.System.UserGrowth

/-! # Paging through the users while they change

GET /v1/admin/users answers one page at a time. A client that asks for one page after the
other meets every user once, whatever other calls do to the accounts in the meantime. -/

namespace SecureCore

set_option autoImplicit false

open Interleaving Relational

namespace AdminService

/-- What a client does to read all users: it goes on until a page is short, and for at most
`more + 1` pages. -/
def userPages (service : AuthService) (accessToken : String) (limit : Nat) :
    Nat → Nat → Call (List UserListResult)
  | 0, offset => do
    let result ← listUsers service accessToken limit offset
    pure [result]
  | more + 1, offset => do
    let result ← listUsers service accessToken limit offset
    if result.users.length < limit then pure [result]
    else
      let results ← userPages service accessToken limit more (offset + limit)
      pure (result :: results)

end AdminService

def UserListResult.ids (result : UserListResult) : List Int := result.users.map User.id

/-- Two accesses account for a result, and the count is the later one. -/
structure PageRead (past : List (Act World Event)) (result : UserListResult) : Prop where
  read : ∃ listAct countAct, [countAct, listAct].Sublist past ∧
    result.users = listAct.before.database.listUsers result.limit result.offset ∧
    result.total = countAct.before.database.users.rows.length

theorem PageRead.suffix {past past' : List (Act World Event)} {result : UserListResult}
    (h : PageRead past result) (hPast : past <:+ past') : PageRead past' result := by
  obtain ⟨listAct, countAct, hSublist, hUsers, hTotal⟩ := h.read
  exact ⟨listAct, countAct, hSublist.trans hPast.sublist, hUsers, hTotal⟩

theorem listUsers_ids (db : Database) (limit offset : Nat) :
    (db.listUsers limit offset).map User.id = Paging.page limit offset (userIds db) := by
  simp [Database.listUsers, userIds, Paging.page, List.map_take, List.map_drop]

/-- A page that has been read on top of `past` by an access among `newer`. -/
structure NewPage (past newer : List (Act World Event)) (limit offset : Nat) (result : UserListResult)
    (listAct : Act World Event) : Prop where
  users : result.users = listAct.before.database.listUsers limit offset
  mem : listAct ∈ newer
  read : PageRead (newer ++ past) result

/-- The accesses that read the pages are made on top of `past`. -/
structure PagesRead (past past' : List (Act World Event)) (limit offset : Nat)
    (results : List UserListResult) : Prop where
  page : ∀ result ∈ results, PageRead past' result
  walk : ∃ reads newer : List (Act World Event), past' = newer ++ past ∧ reads.reverse.Sublist newer ∧
    Paging.Walk limit offset (reads.map (fun act => userIds act.before.database))
      (results.map UserListResult.ids)

section pages

variable {past newer : List (Act World Event)} {limit offset : Nat} {result : UserListResult}
  {listAct : Act World Event}

theorem NewPage.ids (h : NewPage past newer limit offset result listAct) :
    result.ids = Paging.page limit offset (userIds listAct.before.database) := by
  rw [UserListResult.ids, h.users, listUsers_ids]

theorem NewPage.last (h : NewPage past newer limit offset result listAct) :
    PagesRead past (newer ++ past) limit offset [result] := by
  refine ⟨by simpa using h.read, [listAct], newer, rfl, by simpa using h.mem, ?_⟩
  rw [List.map_singleton, List.map_singleton, h.ids]
  exact .stop offset _

theorem NewPage.cons (h : NewPage past newer limit offset result listAct)
    (hFull : ¬ result.users.length < limit) {past' : List (Act World Event)}
    {results : List UserListResult} (hRest : PagesRead (newer ++ past) past' limit (offset + limit) results) :
    PagesRead past past' limit offset (result :: results) := by
  obtain ⟨reads, newer', rfl, hSublist, hWalk⟩ := hRest.walk
  constructor
  · intro result' hMem
    rcases List.mem_cons.mp hMem with rfl | hMem
    · exact h.read.suffix (List.suffix_append _ _)
    · exact hRest.page result' hMem
  · refine ⟨listAct :: reads, newer' ++ newer, by simp, ?_, ?_⟩
    · rw [List.reverse_cons]
      exact hSublist.append (List.singleton_sublist.mpr h.mem)
    · rw [List.map_cons, List.map_cons, h.ids]
      refine .next ?_ hWalk
      have hIds : (Paging.page limit offset (userIds listAct.before.database)).length = result.users.length := by
        rw [← h.ids, UserListResult.ids, List.length_map]
      have hLimit := List.length_take_le limit ((userIds listAct.before.database).drop offset)
      rw [Paging.page] at hIds ⊢
      omega

end pages

section calls

variable {d : Deployment} {service : AuthService} {accessToken : String}
  {Φ : List (Act World Event) → Act World Event → Prop} {past : List (Act World Event)}

theorem leads_listUsers (hService : service.sodium = d.sodium) (hΦ : Admissible Φ (fun _ _ => True))
    {limit offset : Nat} {K : UserListResult → List (Act World Event) → Prop}
    (h : ∀ result listAct newer, NewPage past newer limit offset result listAct → K result (newer ++ past)) :
    Fallible.Leads Φ (AdminService.listUsers service accessToken limit offset) past K (fun _ _ => True) := by
  refine Fallible.leads_bind (leads_permitted hService hΦ (fun _ past₁ hPast₁ => ?_))
  refine Fallible.leads_bind (Fallible.leads_throwIf (fun _ => trivial) (fun _ => ?_))
  refine Fallible.leads_bind (Fallible.leads_bind (Fallible.leads_throwIf (fun _ => trivial) (fun _ => ?_)))
  refine Fallible.leads_bind (Fallible.leads_throwIf (fun _ => trivial) (fun _ => ?_))
  refine leads_query hΦ (fun _ => rfl) (fun listAct past₂ hPast₂ => ?_)
  refine Fallible.leads_bind (leads_query hΦ (fun _ => rfl) (fun countAct past₃ hPast₃ => ?_))
  refine Fallible.leads_pure ?_
  obtain ⟨newer₂, rfl⟩ := hPast₁.trans hPast₂
  obtain ⟨newer₃, rfl⟩ := hPast₃
  have hPast : countAct :: (newer₃ ++ listAct :: (newer₂ ++ past)) =
      (countAct :: newer₃ ++ listAct :: newer₂) ++ past := by simp
  rw [hPast]
  refine h ⟨_, _, limit, offset⟩ listAct _ ⟨rfl, by simp, listAct, countAct, ?_, rfl, rfl⟩
  rw [← hPast]
  exact (List.singleton_sublist.mpr (by simp)).cons_cons countAct

theorem leads_userPages (hService : service.sodium = d.sodium) (hΦ : Admissible Φ (fun _ _ => True))
    {limit : Nat} (more offset : Nat) {K : List UserListResult → List (Act World Event) → Prop}
    (h : ∀ results past', PagesRead past past' limit offset results → K results past') :
    Fallible.Leads Φ (AdminService.userPages service accessToken limit more offset) past K
      (fun _ _ => True) := by
  induction more generalizing past offset K with
  | zero =>
    refine Fallible.leads_bind (leads_listUsers hService hΦ (fun result listAct newer hPage => ?_))
    exact Fallible.leads_pure (h _ _ hPage.last)
  | succ more ih =>
    refine Fallible.leads_bind (leads_listUsers hService hΦ (fun result listAct newer hPage => ?_))
    split
    · exact Fallible.leads_pure (h _ _ hPage.last)
    · rename_i hFull
      refine Fallible.leads_bind (ih (offset + limit) (fun results past' hRest => ?_))
      exact Fallible.leads_pure (h _ _ (hPage.cons hFull hRest))

end calls

/-! ## Runs -/

section runs

variable {τ : Type} [DecidableEq τ]

/-- Every page is a page of the users at one moment, and the total counts them all at a later one. -/
structure PageMet (history : List (Entry (Option τ) World Event)) (result : UserListResult) : Prop where
  read : ∃ e ∈ history, e.thread = none ∧
    result.users = e.before.database.listUsers result.limit result.offset ∧
    e.before.database.users.rows.length ≤ result.total

variable {d : Deployment} {calls : Option τ → Operation} {world : World}
  {history : List (Entry (Option τ) World Event)}

theorem pageMet_of_read (h : Histories d calls world history) {result : UserListResult}
    (hRead : PageRead (own none history) result) : PageMet history result := by
  obtain ⟨listAct, countAct, hSublist, hUsers, hTotal⟩ := hRead.read
  obtain ⟨e, he, hThread, rfl⟩ := mem_own.mp (hSublist.subset (by simp : listAct ∈ [countAct, listAct]))
  have hOrder := (keepsUserIds_forward.pairwise_own KeepsUserIds.refl KeepsUserIds.trans h none).sublist hSublist
  have hGrown := (List.rel_of_pairwise_cons hOrder (List.mem_singleton_self _)).length_le
  rw [userIds, userIds, List.length_map, List.length_map] at hGrown
  exact ⟨e, he, hThread, hUsers, hTotal ▸ hGrown⟩

theorem userIds_pairwise (db : Database) : (userIds db).Pairwise (· < ·) :=
  List.pairwise_map.mpr db.users.ordered

/-- What the pages of a walk over the growing table come to. -/
theorem walk_of_pagesRead (h : Histories d calls world history) {limit : Nat}
    {results : List UserListResult} (hRead : PagesRead [] (own none history) limit 0 results) :
    ∃ e ∈ history, e.thread = none ∧
      results.flatMap UserListResult.ids = (userIds e.before.database).take (results.length * limit) ∧
      ((∃ last ∈ results.getLast?, last.users.length < limit) →
        results.flatMap UserListResult.ids = userIds e.before.database) := by
  obtain ⟨reads, newer, hPast, hSublist, hWalk⟩ := hRead.walk
  rw [List.append_nil] at hPast
  subst hPast
  have hNonempty : reads ≠ [] := fun hNil => hWalk.met_ne_nil (by rw [hNil, List.map_nil])
  have hOrder := (keepsUserIds_forward.pairwise_own KeepsUserIds.refl KeepsUserIds.trans h none).sublist hSublist
  have hGrows : (reads.map (fun act => userIds act.before.database)).Pairwise (· <+: ·) :=
    List.pairwise_map.mpr (List.pairwise_reverse.mp hOrder)
  obtain ⟨e, he, hThread, hLast⟩ := mem_own.mp
    (hSublist.subset (List.mem_reverse.mpr (List.getLast_mem hNonempty)))
  have hContents : (reads.map (fun act => userIds act.before.database)).getLast hWalk.met_ne_nil =
      userIds e.before.database := by
    rw [List.getLast_map, ← hLast]
  refine ⟨e, he, hThread, ?_, ?_⟩
  · rw [List.flatMap_def, hWalk.flatten_eq hGrows, hContents, List.drop_zero, List.length_map]
  · rintro ⟨last, hLastResult, hShort⟩
    rw [List.flatMap_def, hWalk.flatten_of_short hGrows, hContents, List.drop_zero]
    have hResults : results ≠ [] := by
      rintro rfl
      cases hLastResult
    rw [List.getLast?_eq_getLast_of_ne_nil hResults] at hLastResult
    obtain rfl := Option.some.inj hLastResult
    rw [List.getLast_map, UserListResult.ids, List.length_map]
    exact hShort

/-- The client that pages through the users while any other calls run: its pages together are the
ids of the users at its last read, in their order and without repetition, as far as it has read; and
all of them if its last page is short. Nobody who was registered before is left out. -/
theorem users_walk_exact (d : Deployment) (calls : τ → Operation) (process : Nat) (accessToken : String)
    (limit more : Nat) (world : World) (schedule : List (Option τ × (Nat → Surroundings)))
    (results : List UserListResult)
    (hReturned : (((d.readerPool calls (AdminService.userPages (d.service process) accessToken limit more 0)
      world).run schedule).threads none).result? = some (.ok (some results))) :
    let history := ((d.readerPool calls
      (AdminService.userPages (d.service process) accessToken limit more 0) world).run schedule).history
    let listed := results.flatMap UserListResult.ids
    (∀ result ∈ results, PageMet history result) ∧
    ∃ e ∈ history, e.thread = none ∧
      listed = (userIds e.before.database).take (results.length * limit) ∧
      listed.Pairwise (· < ·) ∧
      ((∃ last ∈ results.getLast?, last.users.length < limit) →
        listed = userIds e.before.database ∧ userIds world.database ⊆ listed) := by
  intro history listed
  have hReader : Fallible.Leads (Obeys d (.authenticate 0 ""))
      (AdminService.userPages (d.service process) accessToken limit more 0) []
      (fun results past' => PagesRead [] past' limit 0 results) (fun _ _ => True) :=
    leads_userPages (d.shared process) (admissible_obeys d _) more 0 (fun _ _ hRead => hRead)
  have hRead := readerPool_answer hReader hReturned
  have hRun : Histories d (besideReader calls) world history :=
    (running_readerPool hReader world schedule).execution
  refine ⟨fun result hMem => pageMet_of_read hRun (hRead.page result hMem), ?_⟩
  obtain ⟨e, he, hThread, hListed, hWhole⟩ := walk_of_pagesRead hRun hRead
  refine ⟨e, he, hThread, hListed, ?_, fun hShort => ⟨hWhole hShort, ?_⟩⟩
  · rw [show listed = _ from hListed]
    exact (userIds_pairwise e.before.database).sublist (List.take_sublist _ _)
  · rw [show listed = _ from hWhole hShort]
    have hGrown := keepsUserIds_forward.since KeepsUserIds.refl KeepsUserIds.trans hRun he
    exact hGrown.subset

end runs

namespace Sample

/-- The role of Root and Rita, with the permission to read users. -/
def readableWorld : World :=
  { world with database := { database with permissions := Table.empty.insert ⟨0, "users.read", ""⟩ } }

def secondAnn (_ : Unit) : Operation := .registerUser "ann" "ann@example.org" "12345678"

def userWalkTurns : List (Option Unit × (Nat → Surroundings)) :=
  turns none 10 "r" ++ turns (some ()) 8 "a" ++ turns none 30 "r"

/-- Root reads the users in pages of two while somebody registers. -/
def userWalk : Pool (Option Unit) (Nat → Surroundings) World Event (Except Exception (Option (List UserListResult))) :=
  (deployment.readerPool secondAnn (AdminService.userPages (deployment.service 0) "sc_at_root" 2 3 0) readableWorld).run
    userWalkTurns

end Sample

theorem users_walk_exact_sample :
    ∃ e ∈ Sample.userWalk.history, e.thread = none ∧ userIds e.before.database = [1, 2, 3, 4] := by
  have hIds : (Sample.userWalk.threads none).result?.map (fun r => r.toOption.map (Option.map
      (List.map UserListResult.ids))) = some (some (some [[1, 2], [3, 4], []])) := by decide +kernel
  obtain ⟨r, hReturned, hAnswer⟩ := Option.map_eq_some_iff.mp hIds
  rw [Sample.userWalk] at hReturned ⊢
  obtain ⟨answer, hOk, hAnswer⟩ := Option.map_eq_some_iff.mp hAnswer
  obtain ⟨results, rfl, hResults⟩ := Option.map_eq_some_iff.mp hAnswer
  obtain rfl : r = .ok (some results) := by
    cases r with
    | ok answer => rw [Option.some.inj hOk]
    | error e => cases hOk
  obtain ⟨e, he, hThread, -, -, hWhole⟩ := (users_walk_exact Sample.deployment Sample.secondAnn 0 "sc_at_root" 2 3
    Sample.readableWorld Sample.userWalkTurns results hReturned).2
  refine ⟨e, he, hThread, ?_⟩
  have hShort : ∃ last ∈ results.getLast?, last.users.length < 2 := by
    obtain ⟨last, hLast, hEmpty⟩ : ∃ last, results.getLast? = some last ∧ last.ids = [] := by
      have hEnd := congrArg List.getLast? hResults
      rw [List.getLast?_map] at hEnd
      exact Option.map_eq_some_iff.mp hEnd
    have hNone : last.users = [] := List.map_eq_nil_iff.mp hEmpty
    exact ⟨last, hLast, by rw [hNone]; decide⟩
  rw [← (hWhole hShort).1, List.flatMap_def, hResults]
  rfl

end SecureCore
