import Mathlib.Algebra.GroupWithZero.Nat
import SecureCore.System.Operation

/-! # A deployment on which runs can be computed

The functions of libsodium are replaced by transparent ones. Alice (1) is an ordinary
user with one session, Root (2) and Rita (3) are super administrators with one each. -/

namespace SecureCore.Sample

set_option autoImplicit false

open Interleaving Relational

/-- Every hash asks for a rehash, as after a change of the hashing parameters. -/
def sodium : Sodium where
  pwhashStr _ password := "$" ++ password
  pwhashStrVerify encodedHash password := encodedHash == "$" ++ password
  pwhashStrNeedsRehash _ := 1
  generichash token := "#" ++ token

def service (process : Nat) : AuthService :=
  ⟨sodium, process, "$dummy", 900, 86400, by decide, by decide⟩

def deployment : Deployment := ⟨sodium, service, fun _ => rfl⟩

def user (name passwordHash role : String) : User :=
  ⟨0, name, name ++ "@example.org", passwordHash, role, true, "", ""⟩

/-- A session as migration 4 leaves it; user and session have one id. -/
def session (userId : Int) (name : String) : AuthSession :=
  ⟨0, userId, "#sc_at_" ++ name, "#sc_rt_" ++ name, 5000, 90000, false, "", none,
    "legacy-" ++ toString userId, none⟩

def database : Database where
  users := ((Table.empty.insert (user "alice" "$old-password" "user")).insert
    (user "root" "$root-password" "admin")).insert (user "rita" "$rita-password" "admin")
  authSessions := ((Table.empty.insert (session 1 "alice")).insert (session 2 "root")).insert
    (session 3 "rita")
  roles := (Table.empty.insert ⟨0, "user", "", true⟩).insert ⟨0, "super_admin", "", true⟩
  permissions := ((Table.empty.insert ⟨0, "users.enable", ""⟩).insert
    ⟨0, "users.disable", ""⟩).insert ⟨0, "roles.manage", ""⟩
  rolePermissions := [⟨2, 1⟩, ⟨2, 2⟩, ⟨2, 3⟩]
  userRoles := [⟨1, 1, none, ""⟩, ⟨2, 2, none, ""⟩, ⟨3, 2, none, ""⟩]

def world : World where
  database := database
  protectors _ := ⟨⟨5, 20, 900, 60, 3600, 1000, 1000⟩, [], [], 0⟩

/-- Surroundings in which nothing fails. -/
def calm (random : String) : Nat → Surroundings :=
  fun _ => ⟨none, "2026-01-01T00:00:00.000Z", 1000, 1000, random, [], []⟩

/-- Threads are numbered 0 to 2. -/
instance threads : NeZero 3 := ⟨by decide⟩

/-- The next `n` accesses of one thread. -/
def turns {τ : Type} (thread : τ) (n : Nat) (random : String) : List (τ × (Nat → Surroundings)) :=
  List.replicate n (thread, calm random)

end SecureCore.Sample
