/-
ProcBook/Text/Utf8.lean

Texts and their bytes.  Offsets into a text count the bytes of its UTF-8 form; bytes that are no
UTF-8 are refused with the index of the first wrong sequence and, unless the input merely ends too
early, its length.
-/

namespace ProcBook.Text

/-- The number of bytes that a text takes in UTF-8. -/
def byteLength : List Char → Nat
  | [] => 0
  | c :: text => c.utf8Size + byteLength text

@[simp]
theorem byteLength_nil : byteLength [] = 0 := rfl

@[simp]
theorem byteLength_cons (c : Char) (text : List Char) :
    byteLength (c :: text) = c.utf8Size + byteLength text := rfl

@[simp]
theorem byteLength_append (s t : List Char) : byteLength (s ++ t) = byteLength s + byteLength t := by
  induction s with
  | nil => simp
  | cons c s ih => simp [ih, Nat.add_assoc]

/-! ### Bytes that are no text -/

/-- The first wrong sequence in some bytes: where it starts, and how long it is.  A sequence that the
end of the bytes cuts short has no length. -/
structure DecodeFault where
  index : Nat
  length : Option Nat
deriving Repr, DecidableEq

/-- The wording of a decoding fault. -/
def DecodeFault.message (fault : DecodeFault) : String :=
  match fault.length with
  | some n => "invalid utf-8 sequence of " ++ toString n ++ " bytes from index " ++ toString fault.index
  | none => "incomplete utf-8 byte sequence from index " ++ toString fault.index

/-- Whether a byte continues a sequence. -/
def isContinuation (b : UInt8) : Bool := 0x80 ≤ b && b ≤ 0xbf

/-- Whether `second` may follow the leading byte `first` of a sequence of three or four bytes.  It
rules out overlong forms, surrogates and numbers beyond U+10FFFF. -/
def mayFollow (first second : UInt8) : Bool :=
  if first == 0xe0 then 0xa0 ≤ second && second ≤ 0xbf
  else if first == 0xed then 0x80 ≤ second && second ≤ 0x9f
  else if first == 0xf0 then 0x90 ≤ second && second ≤ 0xbf
  else if first == 0xf4 then 0x80 ≤ second && second ≤ 0x8f
  else isContinuation second

/-- The tests that the bytes after a leading byte have to pass, one each; `none` if the byte cannot
lead a sequence. -/
def followers? (first : UInt8) : Option (List (UInt8 → Bool)) :=
  if first < 0x80 then some []
  else if 0xc2 ≤ first && first ≤ 0xdf then some [isContinuation]
  else if 0xe0 ≤ first && first ≤ 0xef then some [mayFollow first, isContinuation]
  else if 0xf0 ≤ first && first ≤ 0xf4 then some [mayFollow first, isContinuation, isContinuation]
  else none

/-- Matches the bytes after a leading byte with their tests.  `seen` bytes of the sequence have been
read so far.  The result is the bytes after the sequence, or the length of the wrong one. -/
def matchFollowers : List (UInt8 → Bool) → Nat → List UInt8 → Except (Option Nat) (List UInt8)
  | [], _, bytes => .ok bytes
  | _ :: _, _, [] => .error none
  | test :: tests, seen, b :: bytes =>
    if test b then matchFollowers tests (seen + 1) bytes else .error (some seen)

/-- What follows the matched bytes is a tail of the input. -/
theorem length_of_matchFollowers {tests : List (UInt8 → Bool)} {seen : Nat}
    {bytes rest : List UInt8} (h : matchFollowers tests seen bytes = .ok rest) :
    rest.length ≤ bytes.length := by
  induction tests generalizing seen bytes with
  | nil => simp_all [matchFollowers]
  | cons test tests ih =>
    cases bytes with
    | nil => simp [matchFollowers] at h
    | cons b bytes =>
      by_cases hb : test b = true
      · simp only [matchFollowers, hb, if_true] at h
        exact Nat.le_succ_of_le (ih h)
      · simp [matchFollowers, hb] at h

/-- The first wrong sequence in bytes that stand at `index`, if there is one. -/
def decodeFault? (index : Nat) (bytes : List UInt8) : Option DecodeFault :=
  match bytes with
  | [] => none
  | first :: rest =>
    match followers? first with
    | none => some ⟨index, some 1⟩
    | some tests =>
      match h : matchFollowers tests 1 rest with
      | .ok rest' => decodeFault? (index + 1 + tests.length) rest'
      | .error length => some ⟨index, length⟩
termination_by bytes.length
decreasing_by exact Nat.lt_succ_of_le (length_of_matchFollowers h)

/-- The text that some bytes hold, or the first wrong sequence in them. -/
def decode (bytes : ByteArray) : Except DecodeFault String :=
  match String.fromUTF8? bytes with
  | some text => .ok text
  | none => .error ((decodeFault? 0 bytes.data.toList).getD ⟨0, none⟩)

/-- Every text is read back from its bytes. -/
theorem decode_toUTF8 (text : String) : decode text.toUTF8 = .ok text := by
  have hvalid : text.toUTF8.IsValidUTF8 := text.isValidUTF8
  rw [decode, String.fromUTF8?, dif_pos hvalid]
  rfl

/-- Bytes hold a text exactly if they are its bytes. -/
theorem decode_eq_ok_iff {bytes : ByteArray} {text : String} :
    decode bytes = .ok text ↔ bytes = text.toUTF8 := by
  constructor
  · intro h
    unfold decode String.fromUTF8? at h
    split at h
    · next hsome =>
      split at hsome
      · obtain rfl := Option.some.inj hsome
        obtain rfl := Except.ok.inj h
        rfl
      · cases hsome
    · cases h
  · rintro rfl
    exact decode_toUTF8 text

end ProcBook.Text
