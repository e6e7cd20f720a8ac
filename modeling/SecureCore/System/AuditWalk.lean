import Mathlib.Data.List.Nodup
import Mathlib.Data.String.Basic
import SecureCore.Paging.Walk
import SecureCore.System.AuditLog

/-! # Reading the audit log page by page

New events come in at the front of the list, each request for a page adds one itself, and a
purge takes old ones off the end. As long as the clock does not go back, an event that stays
in the log is on one of the pages. -/

namespace SecureCore

set_option autoImplicit false

open Relational Paging

/-! ## The log moves on -/

/-- Old rows went at the front of the table, and rows with new keys came in at its end. -/
def MovedOn (before after : Table AuditEvent) : Prop :=
  before.sequence ≤ after.sequence ∧
  ∃ dropped kept added, before.rows = dropped ++ kept ∧ after.rows = kept ++ added ∧
    ∀ event ∈ added, before.sequence < event.id

namespace MovedOn

variable {before between after : Table AuditEvent}

theorem refl (events : Table AuditEvent) : MovedOn events events :=
  ⟨Int.le_refl _, [], events.rows, [], by simp, by simp, by simp⟩

theorem insert (events : Table AuditEvent) (event : AuditEvent) : MovedOn events (events.insert event) := by
  refine ⟨Int.le_add_one (Int.le_refl _), [], events.rows, [Keyed.withKey events.nextKey event],
    by simp, rfl, ?_⟩
  intro added hAdded
  rw [List.mem_singleton.mp hAdded]
  exact Int.lt_succ events.sequence

/-- A row that went or never was in the table does not come back. -/
theorem not_mem (h : MovedOn before after) {event : AuditEvent} (hKey : event.id ≤ before.sequence)
    (hNot : event ∉ before.rows) : event ∉ after.rows := by
  obtain ⟨-, dropped, kept, added, hBefore, hAfter, hNew⟩ := h
  rw [hAfter, List.mem_append, not_or]
  constructor
  · intro hKept
    exact hNot (by rw [hBefore]; exact List.mem_append_right _ hKept)
  · intro hAdded
    exact absurd (hNew event hAdded) (Int.not_lt.mpr hKey)

theorem trans (h : MovedOn before between) (h' : MovedOn between after) : MovedOn before after := by
  obtain ⟨hSequence, dropped, kept, added, hBefore, hBetween, hNew⟩ := h
  obtain ⟨hSequence', dropped', kept', added', hBetween', hAfter, hNew'⟩ := h'
  refine ⟨Int.le_trans hSequence hSequence', ?_⟩
  have hLater : ∀ event ∈ added', before.sequence < event.id :=
    fun event hAdded => Int.lt_of_le_of_lt hSequence (hNew' event hAdded)
  have hSplit : kept ++ added = dropped' ++ kept' := hBetween.symm.trans hBetween'
  -- the second time, either some of the old rows go or all of them and some of the new ones
  rcases List.append_eq_append_iff.mp hSplit with ⟨lost, hDropped', hAdded⟩ | ⟨stayed, hKept, hKept'⟩
  · refine ⟨before.rows, [], kept' ++ added', by simp, by rw [hAfter, List.nil_append], ?_⟩
    intro event hMem
    rcases List.mem_append.mp hMem with hOld | hFresh
    · exact hNew event (by rw [hAdded]; exact List.mem_append_right _ hOld)
    · exact hLater event hFresh
  · refine ⟨dropped ++ dropped', stayed, added ++ added', ?_, ?_, ?_⟩
    · rw [hBefore, hKept, List.append_assoc]
    · rw [hAfter, hKept', List.append_assoc]
    · intro event hMem
      rcases List.mem_append.mp hMem with hOld | hFresh
      · exact hNew event hOld
      · exact hLater event hFresh

/-- The newest event stands first on the list that the pages are cut from. -/
theorem shifted (h : MovedOn before after) (condition : AuditEvent → Bool) :
    Shifted (before.rows.filter condition).reverse (after.rows.filter condition).reverse := by
  obtain ⟨-, dropped, kept, added, hBefore, hAfter, hNew⟩ := h
  refine ⟨(added.filter condition).reverse, (kept.filter condition).reverse,
    (dropped.filter condition).reverse, ?_, ?_, ?_⟩
  · rw [hBefore, List.filter_append, List.reverse_append]
  · rw [hAfter, List.filter_append, List.reverse_append]
  · intro event hAdded hOld
    have hFresh := hNew event (List.mem_of_mem_filter (List.mem_reverse.mp hAdded))
    have hBound := before.bounded event (List.mem_of_mem_filter (List.mem_reverse.mp hOld))
    exact absurd hFresh (Int.not_lt.mpr hBound)

end MovedOn

/-! ## Clocks -/

/-- When the step stores an event, if it stores one. -/
def AuditStep.time : AuditStep → Option String
  | .recorded _ _ _ _ _ createdAt => some createdAt
  | .administered _ _ _ _ createdAt => some createdAt
  | .purged _ _ => none

/-- The clock of the database never goes back from one event to a later one. -/
def ClockForward (steps : List AuditStep) : Prop := (steps.filterMap AuditStep.time).Pairwise (· ≤ ·)

/-- The times of the rows are among these, in this order. -/
def Dated (times : List String) (events : Table AuditEvent) : Prop :=
  List.Sublist (events.rows.map AuditEvent.createdAt) times

theorem takeWhile_eq_filter {α : Type} {before : α → Bool} {rows : List α}
    (h : rows.Pairwise (fun a b => before b = true → before a = true)) :
    rows.takeWhile before = rows.filter before ∧
      rows.dropWhile before = rows.filter (fun row => !before row) := by
  induction rows with
  | nil => exact ⟨rfl, rfl⟩
  | cons row rows ih =>
    rw [List.pairwise_cons] at h
    obtain ⟨hTake, hDrop⟩ := ih h.2
    cases hRow : before row with
    | true => simp [hRow, hTake, hDrop]
    | false =>
      have hNone : ∀ later ∈ rows, before later = false := by
        intro later hLater
        cases hBefore : before later with
        | true => rw [h.1 later hLater hBefore] at hRow; exact hRow
        | false => rfl
      have hFilter : rows.filter before = [] := by
        rw [List.filter_eq_nil_iff]
        intro later hLater
        simp [hNone later hLater]
      have hWhole : rows.filter (fun row => !before row) = rows := by
        rw [List.filter_eq_self]
        intro later hLater
        simp [hNone later hLater]
      simp [hRow, hFilter, hWhole]

/-- What is older than a cutoff stands at the front of a table whose rows are in order of time. -/
theorem MovedOn.delete {events : Table AuditEvent}
    (h : (events.rows.map AuditEvent.createdAt).Pairwise (· ≤ ·)) (cutoff : String) :
    MovedOn events (events.delete (fun event => event.createdAt < cutoff)) := by
  rw [List.pairwise_map] at h
  have hOldestFirst : events.rows.Pairwise (fun a b =>
      decide (b.createdAt < cutoff) = true → decide (a.createdAt < cutoff) = true) := by
    refine h.imp (fun hOrder hLater => ?_)
    rw [decide_eq_true_eq] at hLater ⊢
    exact lt_of_le_of_lt hOrder hLater
  obtain ⟨hTake, hDrop⟩ := takeWhile_eq_filter hOldestFirst
  refine ⟨Int.le_refl _, events.rows.takeWhile (fun event => decide (event.createdAt < cutoff)),
    events.rows.dropWhile (fun event => decide (event.createdAt < cutoff)), [], ?_, ?_, by simp⟩
  · rw [List.takeWhile_append_dropWhile]
  · rw [hDrop, List.append_nil]
    rfl

/-! ## Steps -/

section steps

variable (json : JsonLibrary) (config : SessionConfig)

theorem create_movedOn (events : Table AuditEvent) (input : CreateAuditEvent) (stored : Stored)
    (createdAt : Strftime) : MovedOn events (AuditRepository.create events input stored createdAt).2 := by
  unfold AuditRepository.create
  cases AuditRepository.validateInput input with
  | error e => exact .refl events
  | ok checked =>
    cases stored with
    | refused e => exact .refl events
    | created => exact .insert events _
    | unread e => exact .insert events _

theorem create_dated {times : List String} {events : Table AuditEvent} (h : Dated times events)
    (input : CreateAuditEvent) (stored : Stored) (createdAt : Strftime) :
    Dated (times ++ [createdAt.val]) (AuditRepository.create events input stored createdAt).2 := by
  have hKept : Dated (times ++ [createdAt.val]) events := h.trans (List.sublist_append_left _ _)
  have hAdded : Dated (times ++ [createdAt.val]) (events.insert (AuditRepository.row input createdAt)) := by
    unfold Dated Table.insert
    rw [List.map_append]
    exact List.Sublist.append h (List.Sublist.refl _)
  unfold AuditRepository.create
  cases AuditRepository.validateInput input with
  | error e => exact hKept
  | ok checked =>
    cases stored with
    | refused e => exact hKept
    | created => exact hAdded
    | unread e => exact hAdded

theorem deleteOlderThanDays_movedOn {events : Table AuditEvent}
    (h : (events.rows.map AuditEvent.createdAt).Pairwise (· ≤ ·)) (retentionDays : Int) (cutoff : Strftime) :
    MovedOn events (AuditRepository.deleteOlderThanDays events retentionDays cutoff).2 := by
  unfold AuditRepository.deleteOlderThanDays
  split
  · exact .refl events
  · exact .delete h cutoff

theorem deleteOlderThanDays_dated {times : List String} {events : Table AuditEvent} (h : Dated times events)
    (retentionDays : Int) (cutoff : Strftime) :
    Dated times (AuditRepository.deleteOlderThanDays events retentionDays cutoff).2 := by
  unfold AuditRepository.deleteOlderThanDays
  split
  · exact h
  · exact (List.filter_sublist.map AuditEvent.createdAt).trans h

theorem AuditStep.apply_movedOn {times : List String} {events : Table AuditEvent} (h : Dated times events)
    (hOrder : times.Pairwise (· ≤ ·)) (step : AuditStep) : MovedOn events (step.apply json config events) := by
  cases step with
  | recorded call request peer source stored createdAt =>
    simp only [AuditStep.apply]
    cases call.record json with
    | none => exact .refl events
    | some record => exact create_movedOn events _ stored createdAt
  | administered command targetId metadata stored createdAt => exact create_movedOn events _ stored createdAt
  | purged retentionDays cutoff => exact deleteOlderThanDays_movedOn (hOrder.sublist h) retentionDays cutoff

theorem AuditStep.apply_dated {times : List String} {events : Table AuditEvent} (h : Dated times events)
    (step : AuditStep) : Dated (times ++ step.time.toList) (step.apply json config events) := by
  cases step with
  | recorded call request peer source stored createdAt =>
    simp only [AuditStep.apply]
    cases call.record json with
    | none => exact h.trans (List.sublist_append_left _ _)
    | some record => exact create_dated h _ stored createdAt
  | administered command targetId metadata stored createdAt => exact create_dated h _ stored createdAt
  | purged retentionDays cutoff =>
    change Dated (times ++ []) _
    rw [List.append_nil]
    exact deleteOlderThanDays_dated h retentionDays cutoff

/-- A run keeps the order in time and moves the log on. -/
theorem run_movedOn {times : List String} {events : Table AuditEvent} (h : Dated times events)
    {steps : List AuditStep} (hOrder : (times ++ steps.filterMap AuditStep.time).Pairwise (· ≤ ·)) :
    MovedOn events (steps.foldl (AuditStep.apply json config) events) ∧
      Dated (times ++ steps.filterMap AuditStep.time) (steps.foldl (AuditStep.apply json config) events) := by
  induction steps generalizing times events with
  | nil =>
    rw [List.filterMap_nil, List.append_nil]
    exact ⟨.refl events, h⟩
  | cons step steps ih =>
    have hTimes : times ++ (step :: steps).filterMap AuditStep.time =
        (times ++ step.time.toList) ++ steps.filterMap AuditStep.time := by
      rw [List.append_assoc]
      congr 1
      cases hTime : step.time with
      | none => rw [List.filterMap_cons_none hTime]; rfl
      | some time => rw [List.filterMap_cons_some hTime]; rfl
    rw [hTimes] at hOrder ⊢
    have hStart : times.Pairwise (· ≤ ·) :=
      hOrder.sublist ((List.sublist_append_left _ _).trans (List.sublist_append_left _ _))
    obtain ⟨hMoved, hDated⟩ := ih (step.apply_dated json config h) hOrder
    exact ⟨(step.apply_movedOn json config h hStart).trans hMoved, hDated⟩

theorem auditRun_movedOn {earlier later : List AuditStep} (hClock : ClockForward (earlier ++ later)) :
    MovedOn (auditRun json config earlier) (auditRun json config (earlier ++ later)) := by
  have hEmpty : Dated [] (Table.empty : Table AuditEvent) := List.Sublist.refl _
  unfold ClockForward at hClock
  rw [List.filterMap_append] at hClock
  have hEarlier : ([] ++ earlier.filterMap AuditStep.time).Pairwise (· ≤ ·) :=
    hClock.sublist (List.sublist_append_left _ _)
  obtain ⟨-, hDated⟩ := run_movedOn json config hEmpty hEarlier
  rw [List.nil_append] at hDated
  unfold auditRun
  rw [List.foldl_append]
  exact (run_movedOn json config hDated hClock).1

end steps

/-! ## Pages -/

/-- The matching events in the order of the list. -/
def newestMatching (filter : AuditEventFilter) (events : Table AuditEvent) : List AuditEvent :=
  (events.rows.filter (AuditRepository.selects filter)).reverse

/-- A reader asks for one page after the other until one is short. Before each but the first
request the log goes through some steps. -/
def readPages (json : JsonLibrary) (config : SessionConfig) :
    List (List AuditStep) → AuditEventFilter → Table AuditEvent → Except Exception (List (List AuditEvent))
  | [], filter, events => do
    let page ← AuditRepository.list events filter
    .ok [page]
  | steps :: pauses, filter, events => do
    let page ← AuditRepository.list events filter
    if (page.length : Int) < filter.limit then .ok [page]
    else
      let rest ← readPages json config pauses { filter with offset := filter.offset + filter.limit }
        (steps.foldl (AuditStep.apply json config) events)
      .ok (page :: rest)

section pages

variable {json : JsonLibrary} {config : SessionConfig}

theorem list_ok {events : Table AuditEvent} {filter : AuditEventFilter} {page : List AuditEvent}
    (h : AuditRepository.list events filter = .ok page) :
    page = Paging.page filter.limit.toNat filter.offset.toNat (newestMatching filter events) ∧
      0 < filter.limit ∧ 0 ≤ filter.offset := by
  unfold AuditRepository.list AuditRepository.validateFilter at h
  cases hPagination : (decide (filter.limit ≤ 0) || decide (100 < filter.limit) || decide (filter.offset < 0)) with
  | true =>
    rw [hPagination] at h
    cases h
  | false =>
    simp only [Bool.or_eq_false_iff, decide_eq_false_iff_not, Int.not_le, Int.not_lt] at hPagination
    refine ⟨?_, hPagination.1.1, hPagination.2⟩
    cases hValid : AuditRepository.validateFilter filter with
    | error e =>
      unfold AuditRepository.validateFilter at hValid
      rw [hValid] at h
      cases h
    | ok checked =>
      unfold AuditRepository.validateFilter at hValid
      rw [hValid] at h
      exact (Except.ok.inj h).symm

/-- The requests, and the tables that they meet. -/
structure PagesMet (json : JsonLibrary) (config : SessionConfig) (filter : AuditEventFilter)
    (first : List AuditStep) (pauses : List (List AuditStep)) (pages : List (List AuditEvent))
    (met : List (Table AuditEvent)) : Prop where
  walk : Walk filter.limit.toNat filter.offset.toNat (met.map (newestMatching filter)) pages
  head : met.head? = some (auditRun json config first)
  chain : met.IsChain MovedOn
  moment : ∀ events ∈ met, ∃ n, events = auditRun json config (first ++ (pauses.take n).flatten)

variable {filter : AuditEventFilter} {first steps : List AuditStep} {pauses : List (List AuditStep)}
  {page : List AuditEvent} {pages : List (List AuditEvent)} {met : List (Table AuditEvent)}

theorem ClockForward.of_append {later : List AuditStep} (h : ClockForward (first ++ later)) : ClockForward first := by
  unfold ClockForward at h ⊢
  rw [List.filterMap_append] at h
  exact h.sublist (List.sublist_append_left _ _)

namespace PagesMet

theorem stop (hPage : AuditRepository.list (auditRun json config first) filter = .ok page) :
    PagesMet json config filter first pauses [page] [auditRun json config first] := by
  obtain ⟨rfl, -, -⟩ := list_ok hPage
  refine ⟨.stop _ _, rfl, List.isChain_singleton _, ?_⟩
  intro events hMem
  refine ⟨0, ?_⟩
  rw [List.mem_singleton.mp hMem, List.take_zero, List.flatten_nil, List.append_nil]

theorem next (hPage : AuditRepository.list (auditRun json config first) filter = .ok page)
    (hFull : ¬(page.length : Int) < filter.limit) (hClock : ClockForward (first ++ steps))
    (h : PagesMet json config { filter with offset := filter.offset + filter.limit } (first ++ steps) pauses
      pages met) :
    PagesMet json config filter first (steps :: pauses) (page :: pages) (auditRun json config first :: met) := by
  obtain ⟨rfl, hLimit, hOffset⟩ := list_ok hPage
  constructor
  · refine .next ?_ ?_
    · have hAtMost := List.length_take_le filter.limit.toNat
        ((newestMatching filter (auditRun json config first)).drop filter.offset.toNat)
      unfold Paging.page at hFull ⊢
      omega
    · have hWalk := h.walk
      rw [Int.toNat_add hOffset (Int.le_of_lt hLimit)] at hWalk
      exact hWalk
  · rfl
  · obtain ⟨met, rfl⟩ : ∃ rest, met = auditRun json config (first ++ steps) :: rest :=
      List.head?_eq_some_iff.mp h.head
    exact List.isChain_cons_cons.mpr ⟨auditRun_movedOn json config hClock, h.chain⟩
  · intro events hMem
    rcases List.mem_cons.mp hMem with rfl | hLater
    · exact ⟨0, by rw [List.take_zero, List.flatten_nil, List.append_nil]⟩
    · obtain ⟨n, rfl⟩ := h.moment events hLater
      exact ⟨n + 1, by rw [List.take_succ_cons, List.flatten_cons, List.append_assoc]⟩

end PagesMet

theorem pagesMet_of_readPages (hClock : ClockForward (first ++ pauses.flatten))
    (h : readPages json config pauses filter (auditRun json config first) = .ok pages) :
    ∃ met, PagesMet json config filter first pauses pages met := by
  induction pauses generalizing filter first pages with
  | nil =>
    unfold readPages at h
    cases hPage : AuditRepository.list (auditRun json config first) filter with
    | error e =>
      rw [hPage] at h
      cases h
    | ok page =>
      rw [hPage] at h
      obtain rfl := Except.ok.inj h
      exact ⟨_, .stop hPage⟩
  | cons steps pauses ih =>
    unfold readPages at h
    cases hPage : AuditRepository.list (auditRun json config first) filter with
    | error e =>
      rw [hPage] at h
      cases h
    | ok page =>
      rw [hPage] at h
      change (if (page.length : Int) < filter.limit then _ else _) = _ at h
      by_cases hShort : (page.length : Int) < filter.limit
      · rw [if_pos hShort] at h
        obtain rfl := Except.ok.inj h
        exact ⟨_, .stop hPage⟩
      · rw [if_neg hShort] at h
        have hNext : steps.foldl (AuditStep.apply json config) (auditRun json config first) =
            auditRun json config (first ++ steps) := List.foldl_append.symm
        rw [hNext] at h
        cases hRest : readPages json config pauses { filter with offset := filter.offset + filter.limit }
            (auditRun json config (first ++ steps)) with
        | error e =>
          rw [hRest] at h
          cases h
        | ok rest =>
          rw [hRest] at h
          obtain rfl := Except.ok.inj h
          rw [List.flatten_cons, ← List.append_assoc] at hClock
          obtain ⟨met, hMet⟩ := ih hClock hRest
          exact ⟨_, .next hPage hShort hClock.of_append hMet⟩

/-- An event that is there when the reading starts and after it is there all the time. -/
theorem mem_of_stays (hClock : ClockForward (first ++ pauses.flatten)) {event : AuditEvent}
    (hFirst : event ∈ (auditRun json config first).rows)
    (hLast : event ∈ (auditRun json config (first ++ pauses.flatten)).rows) (n : Nat) :
    event ∈ (auditRun json config (first ++ (pauses.take n).flatten)).rows := by
  have hSplit : first ++ pauses.flatten = first ++ (pauses.take n).flatten ++ (pauses.drop n).flatten := by
    rw [List.append_assoc, ← List.flatten_append, List.take_append_drop]
  rw [hSplit] at hClock hLast
  by_contra hGone
  have hBound := (auditRun json config first).bounded event hFirst
  have hSequence := (auditRun_movedOn json config hClock.of_append).1
  exact (auditRun_movedOn json config hClock).not_mem (Int.le_trans hBound hSequence) hGone hLast

end pages

/-- While other requests, this reader's own among them, commands and purges change the log, the
pages list events that match at the time, and every matching event that stays in the log. -/
theorem audit_walk_misses_nothing (json : JsonLibrary) (config : SessionConfig) (filter : AuditEventFilter)
    (first : List AuditStep) (pauses : List (List AuditStep)) (pages : List (List AuditEvent))
    (hStart : filter.offset = 0) (hClock : ClockForward (first ++ pauses.flatten))
    (hRead : readPages json config pauses filter (auditRun json config first) = .ok pages)
    (hEnd : ∃ last ∈ pages.getLast?, (last.length : Int) < filter.limit) :
    (∀ page ∈ pages, ∃ n, ∀ event ∈ page, AuditRepository.selects filter event = true ∧
      event ∈ (auditRun json config (first ++ (pauses.take n).flatten)).rows) ∧
    ∀ event, event ∈ (auditRun json config first).rows →
      event ∈ (auditRun json config (first ++ pauses.flatten)).rows →
      AuditRepository.selects filter event = true → ∃ page ∈ pages, event ∈ page := by
  obtain ⟨met, hMet⟩ := pagesMet_of_readPages hClock hRead
  constructor
  · intro page hPage
    obtain ⟨contents, hContents, offset, rfl⟩ := hMet.walk.mem_pages hPage
    obtain ⟨events, hEvents, rfl⟩ := List.mem_map.mp hContents
    obtain ⟨n, rfl⟩ := hMet.moment events hEvents
    refine ⟨n, fun event hEvent => ?_⟩
    have hRow := List.mem_filter.mp (List.mem_reverse.mp (List.mem_of_mem_drop (List.mem_of_mem_take hEvent)))
    exact ⟨hRow.2, hRow.1⟩
  · intro event hFirst hLast hSelected
    have hStays : ∀ contents ∈ met.map (newestMatching filter), event ∈ contents := by
      intro contents hContents
      obtain ⟨events, hEvents, rfl⟩ := List.mem_map.mp hContents
      obtain ⟨n, rfl⟩ := hMet.moment events hEvents
      exact List.mem_reverse.mpr (List.mem_filter.mpr ⟨mem_of_stays hClock hFirst hLast n, hSelected⟩)
    have hNodup : ∀ contents ∈ met.map (newestMatching filter), contents.Nodup := by
      intro contents hContents
      obtain ⟨events, hEvents, rfl⟩ := List.mem_map.mp hContents
      have hRows : events.rows.Nodup := events.ordered.imp (fun hLess hEq => by
        rw [hEq] at hLess
        exact Int.lt_irrefl _ hLess)
      exact List.nodup_reverse.mpr (hRows.filter _)
    have hShifted : (met.map (newestMatching filter)).IsChain Shifted := by
      rw [List.isChain_map]
      exact hMet.chain.imp (fun _ _ hMoved => hMoved.shifted _)
    obtain ⟨last, hLastPage, hShort⟩ := hEnd
    have hMem := hMet.walk.mem_flatten hShifted hNodup ?_ hStays ?_
    · exact List.mem_flatten.mp hMem
    · have hLastEq := List.getLast?_eq_some_getLast hMet.walk.pages_ne_nil
      rw [hLastEq] at hLastPage
      rw [Option.mem_some_iff.mp hLastPage]
      omega
    · have hZero : filter.offset.toNat = 0 := by rw [hStart]; rfl
      simp only [hZero, List.drop_zero]
      exact hStays _ (List.head_mem _)

namespace Sample

def disabledAt (targetId : Int) (createdAt : String) (h : createdAt.toList.all (fun c => c.toNat < 128) = true) :
    AuditStep :=
  .administered .disable targetId "{}" .created ⟨createdAt, ascii_of_all h⟩

def loggedSteps : List AuditStep :=
  [disabledAt 1 "2026-01-01" (by decide), disabledAt 2 "2026-02-01" (by decide),
    disabledAt 3 "2026-03-01" (by decide)]

/-- One event more before each request, and a purge of the oldest before the last. -/
def walkPauses : List (List AuditStep) :=
  [[disabledAt 4 "2026-04-01" (by decide)],
    [disabledAt 5 "2026-04-02" (by decide), .purged 90 ⟨"2026-01-15", ascii_of_all (by decide)⟩]]

def twoAtATime : AuditEventFilter := ⟨none, "", "", 2, 0⟩

def disabledEvent (id : Int) (createdAt : String) : AuditEvent :=
  ⟨id, none, "admin.cli.disable", "success", "user", some id, "secure-admin", "local", "secure-admin", "{}",
    createdAt⟩

/-- The second event is listed twice, the purged one once. -/
def walkedPages : List (List AuditEvent) :=
  [[disabledEvent 3 "2026-03-01", disabledEvent 2 "2026-02-01"],
    [disabledEvent 2 "2026-02-01", disabledEvent 1 "2026-01-01"], []]

theorem audit_walk_misses_nothing_sample :
    (∀ page ∈ walkedPages, ∃ n, ∀ event ∈ page, AuditRepository.selects twoAtATime event = true ∧
      event ∈ (auditRun compactJson sessionConfig (loggedSteps ++ (walkPauses.take n).flatten)).rows) ∧
    ∀ event, event ∈ (auditRun compactJson sessionConfig loggedSteps).rows →
      event ∈ (auditRun compactJson sessionConfig (loggedSteps ++ walkPauses.flatten)).rows →
      AuditRepository.selects twoAtATime event = true → ∃ page ∈ walkedPages, event ∈ page :=
  audit_walk_misses_nothing compactJson sessionConfig twoAtATime loggedSteps walkPauses walkedPages rfl
    (by unfold ClockForward; decide) rfl ⟨[], rfl, by decide⟩

end Sample

end SecureCore
