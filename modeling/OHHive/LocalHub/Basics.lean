import Mathlib.Algebra.Group.Nat.Defs

/-! What every store of the local hub shares: minted identities, its error with the texts it
carries, and the checks on request texts. -/

namespace OHHive

/-- An identity minted by `Uuid::new_v4`; only equality and its text form are used. -/
structure Uuid where
  value : Nat
deriving DecidableEq, Repr

instance : LawfulBEq (Uuid × Uuid) := inferInstance

instance : ToString Uuid := ⟨fun uuid => toString uuid.value⟩

instance (value : Nat) : OfNat Uuid value := ⟨⟨value⟩⟩

/-- The local hub's error, with the text `rejected` carries. -/
inductive HubError where
  | badKey
  | transport (reason : String)
  | rejected (reason : String)
deriving DecidableEq, Repr

abbrev Result := Except HubError

def rejected (reason : String) : HubError := .rejected reason

/-- Every SQLite failure, uniqueness and foreign keys included, is reported alike. -/
def dbError : HubError := rejected "local database operation failed"

def u32Max : Nat := 2 ^ 32 - 1

def i64Max : Nat := 2 ^ 63 - 1

/-- `char::is_whitespace`, the Unicode `White_Space` property. -/
def isWhitespace (char : Char) : Bool :=
  let code := char.toNat
  (9 ≤ code && code ≤ 13) || (0x2000 ≤ code && code ≤ 0x200A) ||
    [0x20, 0x85, 0xA0, 0x1680, 0x2028, 0x2029, 0x202F, 0x205F, 0x3000].contains code

/-- `check_text`: not blank, and at most `limit` bytes long. -/
def checkText (text : String) (limit : Nat) : Result Unit :=
  if text.toList.all isWhitespace || text.utf8ByteSize > limit then
    .error (rejected "invalid text length")
  else .ok ()

end OHHive
