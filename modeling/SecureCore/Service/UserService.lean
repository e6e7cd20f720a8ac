import SecureCore.Repository.UserRepository
import SecureCore.Security.Crypto

/-! # UserService -/

namespace SecureCore.UserService

set_option autoImplicit false

open Interleaving

def isAsciiLetter (c : Char) : Bool := ('a' ≤ c && c ≤ 'z') || ('A' ≤ c && c ≤ 'Z')

def isAsciiDigit (c : Char) : Bool := '0' ≤ c && c ≤ '9'

def isValidUsername (username : String) : Bool :=
  decide (3 ≤ username.length) && decide (username.length ≤ 32) &&
    username.toList.all (fun c => isAsciiLetter c || isAsciiDigit c || c == '_' || c == '-')

/-- `std::isspace` in the C locale. -/
def isSpace (c : Char) : Bool := c == ' ' || ('\t' ≤ c && c ≤ '\r')

/-- Exactly one '@', at most 64 bytes before it, and after the first byte of the
domain a '.' that is not the last byte. -/
def isValidEmail (email : String) : Bool :=
  let bytes := email.toList
  let atPosition := bytes.findIdx (· == '@')
  let domain := bytes.drop (atPosition + 1)
  let dotPosition := (domain.drop 1).findIdx (· == '.')
  decide (3 ≤ bytes.length) && decide (bytes.length ≤ 254) &&
    decide (atPosition < bytes.length) && atPosition != 0 && !domain.isEmpty &&
    !domain.contains '@' && decide (atPosition ≤ 64) &&
    decide (dotPosition + 1 < (domain.drop 1).length) &&
    bytes.all (fun c => !isSpace c)

def isValidPassword (password : String) : Bool :=
  decide (8 ≤ password.length) && decide (password.length ≤ 128)

def invalidUsername : Exception := .registrationError .invalidUsername
  "Username must contain 3 to 32 ASCII letters, digits, '_' or '-'"

def invalidEmail : Exception := .registrationError .invalidEmail "Email address is invalid"

def weakPassword : Exception :=
  .registrationError .weakPassword "Password must contain between 8 and 128 bytes"

def duplicateUser : Exception :=
  .registrationError .duplicateUser "Username or email already exists"

def registerUser (sodium : Sodium) (username email password : String) : Call User := do
  let username := trimCopy username
  let email := lowercaseCopy (trimCopy email)
  Fallible.throwIf (!isValidUsername username) invalidUsername
  Fallible.throwIf (!isValidEmail email) invalidEmail
  Fallible.throwIf (!isValidPassword password) weakPassword
  let passwordHash ← PasswordHasher.hash sodium password
  tryCatch (UserRepository.create ⟨username, email, passwordHash, "user"⟩)
    (fun error => match error with
      | .duplicateUserError _ => throw duplicateUser
      | _ => throw error)

end SecureCore.UserService
