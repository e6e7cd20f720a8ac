import SecureCore.Service.Revocation
import SecureCore.System.LegacyRoles

/-! # The roles of the migrations stay the only ones

No operation writes the tables roles and permissions, so whatever runs after migration 5,
their rows are the ones that it has put there. -/

namespace SecureCore

set_option autoImplicit false

open Interleaving Relational

/-! ## The rows of migration 5 -/

namespace Migration

/-- The rows of a table into which listed rows are put unless their names are there. -/
theorem mem_insertListed {ρ : Type} [Keyed ρ] {insert : Table ρ → String × String → Table ρ}
    {described : ρ → String × String}
    (hInsert : ∀ t row r, r ∈ (insert t row).rows → r ∈ t.rows ∨ described r = row)
    {listed : List (String × String)} {t : Table ρ} {r : ρ} (hr : r ∈ (listed.foldl insert t).rows) :
    r ∈ t.rows ∨ described r ∈ listed := by
  induction listed generalizing t with
  | nil => exact .inl hr
  | cons row listed ih =>
    rcases ih hr with hOld | hListed
    · rcases hInsert t row r hOld with hOld | hNew
      · exact .inl hOld
      · exact .inr (List.mem_cons.mpr (.inl hNew))
    · exact .inr (List.mem_cons_of_mem _ hListed)

theorem mem_insertRole (roles : Table RoleRow) (row : String × String) (r : RoleRow)
    (hr : r ∈ (insertRole roles row).rows) : r ∈ roles.rows ∨ (r.name, r.description) = row := by
  unfold insertRole at hr
  split at hr
  · exact .inl hr
  · rcases Table.mem_insert.mp hr with hOld | rfl
    · exact .inl hOld
    · exact .inr rfl

theorem mem_insertPermission (permissions : Table Permission) (row : String × String) (p : Permission)
    (hp : p ∈ (insertPermission permissions row).rows) :
    p ∈ permissions.rows ∨ (p.name, p.description) = row := by
  unfold insertPermission at hp
  split at hp
  · exact .inl hp
  · rcases Table.mem_insert.mp hp with hOld | rfl
    · exact .inl hOld
    · exact .inr rfl

end Migration

/-! ## Every access keeps them -/

structure KeepsTables (db db' : Database) : Prop where
  roles : db'.roles = db.roles
  permissions : db'.permissions = db.permissions

namespace KeepsTables

variable {db db' db'' : Database}

theorem trans (h : KeepsTables db db') (h' : KeepsTables db' db'') : KeepsTables db db'' :=
  ⟨h'.roles.trans h.roles, h'.permissions.trans h.permissions⟩

theorem builtIn (h : KeepsTables db db') (hBuiltIn : db.BuiltIn) : db'.BuiltIn := by
  constructor
  · rw [h.roles]
    exact hBuiltIn.roles
  · rw [h.permissions]
    exact hBuiltIn.permissions

theorem insertUserRole (db : Database) (row : UserRoleRow) : KeepsTables db (db.insertUserRole row) := by
  unfold Database.insertUserRole
  split <;> exact ⟨rfl, rfl⟩

theorem insertUserRoles (rows : List UserRoleRow) (db : Database) :
    KeepsTables db (rows.foldl Database.insertUserRole db) := by
  induction rows generalizing db with
  | nil => exact ⟨rfl, rfl⟩
  | cons row rows ih => exact (insertUserRole db row).trans (ih _)

theorem grantRole (db : Database) (row : UserRoleRow) (roleName now : String) :
    KeepsTables db (db.grantRole row roleName now) := by
  unfold Database.grantRole
  simp only
  split
  · exact (insertUserRole db row).trans ⟨rfl, rfl⟩
  · exact insertUserRole db row

theorem removeRole (db : Database) (userId roleId : Int) (roleName now : String) :
    KeepsTables db (db.removeRole userId roleId roleName now) := by
  unfold Database.removeRole
  simp only
  split <;> exact ⟨rfl, rfl⟩

end KeepsTables

theorem Migration.builtIn_createRbac (users : Table User) (authSessions : Table AuthSession)
    (now now' : String) : (createRbac users authSessions now now').BuiltIn := by
  refine ((KeepsTables.insertUserRoles _ _).trans (KeepsTables.insertUserRoles _ _)).builtIn ?_
  constructor
  · intro r hr
    exact (mem_insertListed mem_insertRole hr).resolve_left List.not_mem_nil
  · intro p hp
    exact (mem_insertListed mem_insertPermission hp).resolve_left List.not_mem_nil

theorem AuthService.RefreshOutcome.keepsTables {db db' : Database} {tokenHash : String} {now : Int}
    {r : Except Exception LoginResult} {events : List Event}
    (h : RefreshOutcome db tokenHash now r db' events) : KeepsTables db db' := by
  cases h with
  | reusedUser revokedAt hFound hRevoked hFamily => split <;> exact ⟨rfl, rfl⟩
  | _ => exact ⟨rfl, rfl⟩

theorem AdminChange.keepsTables {db db' : Database} {userId : Int} {action : AdminAction}
    (h : AdminChange db userId action db') : KeepsTables db db' := by
  cases h with
  | granted now now' hUser hRole => exact KeepsTables.grantRole db _ _ _
  | removed now hUser hRole hGuard hBase => exact KeepsTables.removeRole db _ _ _ _
  | _ => exact ⟨rfl, rfl⟩

theorem Obeys.keepsTables {d : Deployment} {op : Operation} {past : List (Act World Event)}
    {act : Act World Event} (h : Obeys d op past act) :
    KeepsTables act.before.database act.after.database := by
  cases h with
  | reads hSame hEvents =>
    rw [hSame]
    exact ⟨rfl, rfl⟩
  | refresh hOutcome => exact hOutcome.keepsTables
  | administer hRequest hAuthorised hChange hEvents => exact hChange.keepsTables
  | secureAdmin hAction hChange hEvents => exact hChange.keepsTables
  | register _ _ hAfter | upgradeHash _ _ _ hAfter | changePassword _ _ _ _ hAfter
  | openSession _ _ _ hAfter | logout _ _ _ hAfter | logoutAll _ _ _ hAfter
  | revokeSession _ _ _ hAfter | expire hAfter =>
    rw [hAfter]
    exact ⟨rfl, rfl⟩

/-! ## Runs -/

/-- A world in which any calls of a deployment have made any of their accesses since
migration 5. -/
def Reached (world : World) : Prop :=
  ∃ (τ : Type) (_ : DecidableEq τ) (d : Deployment) (calls : τ → Operation) (users : Table User)
    (authSessions : Table AuthSession) (now now' : String) (protectors : Nat → AuthAbuseProtector)
    (schedule : List (τ × (Nat → Surroundings))),
    world = ((d.pool calls ⟨Migration.createRbac users authSessions now now', protectors⟩).run schedule).state

theorem Reached.builtIn {world : World} (h : Reached world) : world.database.BuiltIn := by
  obtain ⟨τ, _, d, calls, users, authSessions, now, now', protectors, schedule, rfl⟩ := h
  have hRun := running_pool d calls
    ⟨Migration.createRbac users authSessions now now', protectors⟩ schedule
  rw [hRun.state]
  apply Execution.invariant (I := fun w _ => w.database.BuiltIn) _ _ hRun.execution
  · exact Migration.builtIn_createRbac users authSessions now now'
  · intro e older hEntry hBefore
    exact hEntry.uncons.2.2.keepsTables.builtIn hBefore

end SecureCore
