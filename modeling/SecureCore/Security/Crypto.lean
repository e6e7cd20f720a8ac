import SecureCore.Database.Access

/-! # PasswordHasher and TokenService

The functions of libsodium are parameters; what the services compute around them
is not. -/

namespace SecureCore

set_option autoImplicit false

open Interleaving

structure Sodium where
  /-- crypto_pwhash_str, with the salt it draws as first argument. -/
  pwhashStr : String → String → String
  /-- crypto_pwhash_str_verify, hash first. -/
  pwhashStrVerify : String → String → Bool
  pwhashStrNeedsRehash : String → Int
  /-- crypto_generichash, hex-encoded. -/
  generichash : String → String

namespace PasswordHasher

variable (sodium : Sodium)

def hash (password : String) : Call String :=
  if password.isEmpty then throw (.invalidArgument "Password must not be empty")
  else consult (fun env => match env.failure with
    | some _ => (.error (.runtimeError "Password hashing failed"), [])
    | none => (.ok (sodium.pwhashStr env.random password), []))

def matchesHash (password encodedHash : String) : Bool :=
  !password.isEmpty && !encodedHash.isEmpty && sodium.pwhashStrVerify encodedHash password

/-- Verification happens between accesses; the event records it for an observer. -/
def verify (password encodedHash : String) : Call Bool :=
  consult (fun _ => (.ok (matchesHash sodium password encodedHash),
    [.passwordChecked encodedHash (matchesHash sodium password encodedHash)]))

def needsRehash (encodedHash : String) : Call Bool :=
  if encodedHash.isEmpty then pure false
  else if sodium.pwhashStrNeedsRehash encodedHash < 0 then
    throw (.runtimeError "Password hash parameters could not be inspected")
  else pure (sodium.pwhashStrNeedsRehash encodedHash != 0)

end PasswordHasher

structure GeneratedToken where
  value : String
  hash : String
  deriving DecidableEq, Repr

namespace TokenService

variable {ι σ : Type} [HasSurroundings ι] (sodium : Sodium)

def hashToken (token : String) : String := sodium.generichash token

def generateToken (tokenPrefix : String) : Fallible ι σ Event Exception GeneratedToken :=
  consult (fun env =>
    let token := tokenPrefix ++ env.random
    (.ok ⟨token, hashToken sodium token⟩, []))

def generateAccessToken : Fallible ι σ Event Exception GeneratedToken :=
  generateToken sodium "sc_at_"

def generateRefreshToken : Fallible ι σ Event Exception GeneratedToken :=
  generateToken sodium "sc_rt_"

def generateTokenFamilyId : Fallible ι σ Event Exception String :=
  consult (fun env =>
    (.ok ("sc_tf_" ++ env.random), [.familyGenerated ("sc_tf_" ++ env.random)]))

end TokenService

end SecureCore
