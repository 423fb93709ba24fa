/-!
# UTF-8

A byte sequence is read as UTF-8 in two ways. `decode?` accepts well-formed sequences only.
`decodeLossy` accepts every sequence and puts U+FFFD in place of each maximal ill-formed part: the
longest run of bytes that begins a character but does not end one, or else a single byte.
-/

namespace SchemaKeeper.Text

/-- The bytes a character may still take: how many, the range of the next one, and the code point
collected so far. -/
structure Utf8Pending where
  owed : Nat
  low : Nat
  high : Nat
  code : Nat

/-- What a byte starts: a character on its own, a longer character, or nothing. -/
inductive Utf8Lead where
  | single (c : Char)
  | longer (pending : Utf8Pending)
  | none

/-- The character, or the beginning of one, that a first byte stands for. The ranges of the second
byte leave out overlong forms, surrogates and code points above U+10FFFF. -/
def Utf8Lead.ofByte (b : Nat) : Utf8Lead :=
  if b < 0x80 then .single (Char.ofNat b)
  else if 0xC2 ≤ b ∧ b ≤ 0xDF then .longer ⟨1, 0x80, 0xBF, b - 0xC0⟩
  else if b = 0xE0 then .longer ⟨2, 0xA0, 0xBF, 0⟩
  else if b = 0xED then .longer ⟨2, 0x80, 0x9F, 0xD⟩
  else if 0xE1 ≤ b ∧ b ≤ 0xEF then .longer ⟨2, 0x80, 0xBF, b - 0xE0⟩
  else if b = 0xF0 then .longer ⟨3, 0x90, 0xBF, 0⟩
  else if 0xF1 ≤ b ∧ b ≤ 0xF3 then .longer ⟨3, 0x80, 0xBF, b - 0xF0⟩
  else if b = 0xF4 then .longer ⟨3, 0x80, 0x8F, 4⟩
  else .none

/-- Read the remaining bytes of a character: the character if all of them are there, and what
follows the bytes taken. -/
def Utf8Pending.finish (p : Utf8Pending) : Nat → List Nat → Option Char × List Nat
  | 0, rest => (some (Char.ofNat p.code), rest)
  | _ + 1, [] => (none, [])
  | owed + 1, b :: rest =>
    if p.low ≤ b ∧ b ≤ p.high then
      Utf8Pending.finish ⟨owed, 0x80, 0xBF, p.code * 64 + (b - 0x80)⟩ owed rest
    else (none, b :: rest)

/-- One character of a byte sequence, or `none` for its first maximal ill-formed part, with the
bytes that follow. -/
def nextUtf8 (b : Nat) (rest : List Nat) : Option Char × List Nat :=
  match Utf8Lead.ofByte b with
  | .single c => (some c, rest)
  | .longer p => p.finish p.owed rest
  | .none => (none, rest)

/-- The characters of at most `fuel` steps through a byte sequence. -/
def utf8Steps : Nat → List Nat → List (Option Char)
  | 0, _ => []
  | _ + 1, [] => []
  | fuel + 1, b :: rest =>
    let (c, following) := nextUtf8 b rest
    c :: utf8Steps fuel following

/-- The text of a byte sequence, with U+FFFD for each maximal ill-formed part. -/
def decodeLossy (bytes : List Nat) : String :=
  String.ofList ((utf8Steps bytes.length bytes).map (·.getD '\ufffd'))

/-- The text of a well-formed byte sequence. -/
def decode? (bytes : List Nat) : Option String :=
  ((utf8Steps bytes.length bytes).mapM id).map String.ofList

end SchemaKeeper.Text
