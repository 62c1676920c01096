/-
ProcBook/Json/Text.lean

Strings in a JSON text.  `readString` gives the characters that a string stands for, `skipString` only
finds its end and is more lenient: it does not look at surrogate pairs.  Both start after the opening
quotation mark, and both leave less text than they were given.
-/
import ProcBook.Json.Fault
import ProcBook.Text.Digit

namespace ProcBook.Json

open Text (hexDigit?)

/-! ### Escapes -/

/-- The character that a letter after a backslash stands for. -/
def simpleEscape? : Char → Option Char
  | '"' => some '"'
  | '\\' => some '\\'
  | '/' => some '/'
  | 'b' => some '\x08'
  | 'f' => some '\x0c'
  | 'n' => some '\n'
  | 'r' => some '\r'
  | 't' => some '\t'
  | _ => none

/-- The fault of an escape whose next four bytes are no hexadecimal digits. -/
def hexFault (text : List Char) : Fault :=
  if Text.byteLength text < 4 then .here .endInString [] else ⟨.invalidEscape, text, 4⟩

/-- Reads four hexadecimal digits. -/
def readHex (text : List Char) : Except Fault (Nat × List Char) :=
  match text with
  | a :: b :: c :: d :: rest =>
    match hexDigit? a, hexDigit? b, hexDigit? c, hexDigit? d with
    | some a, some b, some c, some d => .ok (((a * 16 + b) * 16 + c) * 16 + d, rest)
    | _, _, _, _ => .error (hexFault text)
  | _ => .error (hexFault text)

/-- Whether a code unit is the first half of a surrogate pair. -/
def isLeading (n : Nat) : Bool := 0xd800 ≤ n && n ≤ 0xdbff

/-- Whether a code unit is the second half of a surrogate pair. -/
def isTrailing (n : Nat) : Bool := 0xdc00 ≤ n && n ≤ 0xdfff

/-- The character that a surrogate pair stands for. -/
def ofPair (leading trailing : Nat) : Char :=
  Char.ofNat (0x10000 + (leading - 0xd800) * 0x400 + (trailing - 0xdc00))

/-- Reads the second half of the pair that starts with `leading`. -/
def readSecondHalf (leading : Nat) (text : List Char) : Except Fault (Char × List Char) :=
  match text with
  | [] => .error (.here .endInString [])
  | '\\' :: 'u' :: rest =>
    match readHex rest with
    | .error fault => .error fault
    | .ok (trailing, rest) =>
      if isTrailing trailing then .ok (ofPair leading trailing, rest)
      else .error (.here .loneSurrogate rest)
  | '\\' :: [] => .error (.here .endInString [])
  | '\\' :: rest => .error (.next .halfPair rest)
  | _ => .error (.next .halfPair text)

/-- Reads an escape after its backslash. -/
def readEscape (text : List Char) : Except Fault (Char × List Char) :=
  match text with
  | [] => .error (.here .endInString [])
  | c :: rest =>
    match simpleEscape? c with
    | some d => .ok (d, rest)
    | none =>
      if c == 'u' then
        match readHex rest with
        | .error fault => .error fault
        | .ok (n, rest) =>
          if isTrailing n then .error (.here .loneSurrogate rest)
          else if isLeading n then readSecondHalf n rest
          else .ok (Char.ofNat n, rest)
      else .error (.next .invalidEscape text)

/-- Passes over an escape after its backslash. -/
def skipEscape (text : List Char) : Except Fault (List Char) :=
  match text with
  | [] => .error (.here .endInString [])
  | c :: rest =>
    if (simpleEscape? c).isSome then .ok rest
    else if c == 'u' then (readHex rest).map (·.2)
    else .error (.next .invalidEscape text)

/-! ### Every escape takes something -/

theorem length_of_readHex {text rest : List Char} {n : Nat} (h : readHex text = .ok (n, rest)) :
    rest.length < text.length := by
  unfold readHex at h
  split at h
  · split at h
    · obtain ⟨-, rfl⟩ := Prod.mk.inj (Except.ok.inj h)
      simp only [List.length_cons]
      omega
    · simp at h
  · simp at h

theorem length_of_readSecondHalf {leading : Nat} {text rest : List Char} {c : Char}
    (h : readSecondHalf leading text = .ok (c, rest)) : rest.length < text.length := by
  unfold readSecondHalf at h
  split at h
  · simp at h
  · next rest' =>
    split at h
    · simp at h
    · next n rest'' hx =>
      have := length_of_readHex hx
      split at h
      · obtain ⟨-, rfl⟩ := Prod.mk.inj (Except.ok.inj h)
        simp only [List.length_cons]
        omega
      · simp at h
  all_goals simp at h

theorem length_of_readEscape {text rest : List Char} {c : Char}
    (h : readEscape text = .ok (c, rest)) : rest.length < text.length := by
  unfold readEscape at h
  split at h
  · simp at h
  · next c' rest' =>
    split at h
    · obtain ⟨-, rfl⟩ := Prod.mk.inj (Except.ok.inj h)
      simp
    · split at h
      · split at h
        · simp at h
        · next n rest'' hx =>
          have := length_of_readHex hx
          simp only [List.length_cons]
          split at h
          · simp at h
          · split at h
            · have := length_of_readSecondHalf h
              omega
            · obtain ⟨-, rfl⟩ := Prod.mk.inj (Except.ok.inj h)
              omega
      · simp at h

theorem length_of_skipEscape {text rest : List Char} (h : skipEscape text = .ok rest) :
    rest.length < text.length := by
  unfold skipEscape at h
  split at h
  · simp at h
  · next c rest' =>
    split at h
    · obtain rfl := Except.ok.inj h
      simp
    · split at h
      · cases hx : readHex rest' with
        | error fault => simp [hx, Except.map] at h
        | ok p =>
          obtain ⟨n, rest''⟩ := p
          simp only [hx, Except.map, Except.ok.injEq] at h
          have := length_of_readHex hx
          simp only [List.length_cons, ← h]
          omega
      · simp at h

/-! ### Strings -/

/-- Reads a string after its opening quotation mark: its characters, and what follows the closing
mark. -/
def readString (text : List Char) : Except Fault (List Char × List Char) :=
  match text with
  | [] => .error (.here .endInString [])
  | c :: rest =>
    if c == '"' then .ok ([], rest)
    else if c == '\\' then
      match h : readEscape rest with
      | .error fault => .error fault
      | .ok (d, rest') =>
        have := length_of_readEscape h
        (readString rest').map fun (value, rest) => (d :: value, rest)
    else if c < ' ' then .error (.here .controlCharacter rest)
    else (readString rest).map fun (value, rest) => (c :: value, rest)
termination_by text.length
decreasing_by all_goals simp only [List.length_cons]; omega

/-- Passes over a string after its opening quotation mark. -/
def skipString (text : List Char) : Except Fault (List Char) :=
  match text with
  | [] => .error (.here .endInString [])
  | c :: rest =>
    if c == '"' then .ok rest
    else if c == '\\' then
      match h : skipEscape rest with
      | .error fault => .error fault
      | .ok rest' =>
        have := length_of_skipEscape h
        skipString rest'
    else if c < ' ' then .error (.here .controlCharacter text)
    else skipString rest
termination_by text.length
decreasing_by all_goals simp only [List.length_cons]; omega

theorem length_of_readString {text value rest : List Char}
    (h : readString text = .ok (value, rest)) : rest.length < text.length := by
  fun_induction readString text generalizing value rest with
  | case1 => simp at h
  | case2 => simp_all
  | case3 => simp at h
  | case4 c r _ _ d r' _ hlt ih =>
    cases hs : readString r' with
    | error fault => simp [hs, Except.map] at h
    | ok p =>
      simp only [hs, Except.map, Except.ok.injEq, Prod.mk.injEq] at h
      have := @ih p.1 p.2 hs
      simp only [List.length_cons, ← h.2]
      omega
  | case5 => simp at h
  | case6 c r _ _ _ ih =>
    cases hs : readString r with
    | error fault => simp [hs, Except.map] at h
    | ok p =>
      simp only [hs, Except.map, Except.ok.injEq, Prod.mk.injEq] at h
      have := @ih p.1 p.2 hs
      simp only [List.length_cons, ← h.2]
      omega

theorem length_of_skipString {text rest : List Char} (h : skipString text = .ok rest) :
    rest.length < text.length := by
  fun_induction skipString text with
  | case1 => simp at h
  | case2 => simp_all
  | case3 => simp at h
  | case4 c r _ _ r' _ hlt ih =>
    have := ih h
    simp only [List.length_cons]
    omega
  | case5 => simp at h
  | case6 c r _ _ _ ih =>
    have := ih h
    simp only [List.length_cons]
    omega

end ProcBook.Json
