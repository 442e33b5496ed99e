/-!
# Scanning JSON text

A scanner takes a list of characters and gives what it read and the rest, or nothing if the text
does not begin with what it looks for.  Strings are read with their escapes resolved.  A value of
no interest is skipped: it has to be well formed, but may be of any size and nested to any depth,
so the brackets that are still open are kept in a list.

* `skipBlank` — the blanks between the parts of a text.
* `string?` — the characters of a string, up to its closing quote.
* `skipString?`, `skipNumber?`, `skipWord?` — the parts of a value of no interest.
* `skipValue?` — a whole value of no interest.
* `natural?` — a number without sign, fraction or exponent.

A string that is skipped is read less strictly than one that is wanted: an escape by number has to
have four digits, but need not name a character.
-/

namespace ForeignTypes.Json

def isBlank (c : Char) : Bool := c = ' ' || c = '\t' || c = '\n' || c = '\r'

/-- The text without the blanks at its front. -/
def skipBlank (cs : List Char) : List Char := cs.dropWhile isBlank

/-- The characters that may not stand in a string unescaped. -/
def isControl (c : Char) : Bool := c.toNat < 0x20

/-! ## Escapes -/

def hexDigit? (c : Char) : Option Nat :=
  if '0' ≤ c ∧ c ≤ '9' then some (c.toNat - '0'.toNat)
  else if 'a' ≤ c ∧ c ≤ 'f' then some (c.toNat - 'a'.toNat + 10)
  else if 'A' ≤ c ∧ c ≤ 'F' then some (c.toNat - 'A'.toNat + 10)
  else none

def hex4? (a b c d : Char) : Option Nat := do
  return (((← hexDigit? a) * 16 + (← hexDigit? b)) * 16 + (← hexDigit? c)) * 16 + (← hexDigit? d)

/-- The character that stands for itself or for a control character after a backslash. -/
def simpleEscape? : Char → Option Char
  | '"' => some '"'
  | '\\' => some '\\'
  | '/' => some '/'
  | 'b' => some '\x08'
  | 'f' => some '\x0c'
  | 'n' => some '\n'
  | 'r' => some '\r'
  | 't' => some '\t'
  | _ => none

def isHighHalf (n : Nat) : Bool := 0xD800 ≤ n ∧ n < 0xDC00

def isLowHalf (n : Nat) : Bool := 0xDC00 ≤ n ∧ n < 0xE000

/-- The character that a pair of code units stands for. -/
def pairChar (high low : Nat) : Char :=
  Char.ofNat (0x10000 + (high - 0xD800) * 0x400 + (low - 0xDC00))

/-! ## Strings -/

/-- The characters of a string whose opening quote was read, after those in `read`, the last one
first.  Half of a pair of code units cannot stand alone. -/
def stringAfter? (read : List Char) : List Char → Option (List Char × List Char)
  | [] => none
  | '"' :: rest => some (read.reverse, rest)
  | '\\' :: 'u' :: a :: b :: c :: d :: rest =>
    match hex4? a b c d with
    | none => none
    | some n =>
      if isHighHalf n then
        match rest with
        | '\\' :: 'u' :: e :: f :: g :: h :: rest =>
          match hex4? e f g h with
          | some m => if isLowHalf m then stringAfter? (pairChar n m :: read) rest else none
          | none => none
        | _ => none
      else if isLowHalf n then none
      else stringAfter? (Char.ofNat n :: read) rest
  | '\\' :: c :: rest =>
    match simpleEscape? c with
    | some e => stringAfter? (e :: read) rest
    | none => none
  | c :: rest => if isControl c then none else stringAfter? (c :: read) rest

def string? (cs : List Char) : Option (String × List Char) :=
  match skipBlank cs with
  | '"' :: rest => (stringAfter? [] rest).map fun (s, rest) => (String.ofList s, rest)
  | _ => none

/-- The rest after a string whose opening quote was read. -/
def skipString? : List Char → Option (List Char)
  | [] => none
  | '"' :: rest => some rest
  | '\\' :: 'u' :: a :: b :: c :: d :: rest =>
    match hex4? a b c d with
    | some _ => skipString? rest
    | none => none
  | '\\' :: c :: rest =>
    match simpleEscape? c with
    | some _ => skipString? rest
    | none => none
  | c :: rest => if isControl c then none else skipString? rest

/-! ## Numbers and words -/

def isDigit (c : Char) : Bool := '0' ≤ c ∧ c ≤ '9'

def skipDigits? : List Char → Option (List Char)
  | d :: rest => if isDigit d then some (rest.dropWhile isDigit) else none
  | [] => none

/-- The rest after the digits before the point: a zero, or digits that do not begin with one. -/
def skipWhole? : List Char → Option (List Char)
  | '0' :: d :: rest => if isDigit d then none else some (d :: rest)
  | cs => skipDigits? cs

def skipFraction? : List Char → Option (List Char)
  | '.' :: rest => skipDigits? rest
  | cs => some cs

def skipExponent? : List Char → Option (List Char)
  | e :: rest =>
    if e = 'e' ∨ e = 'E' then
      match rest with
      | '+' :: rest | '-' :: rest => skipDigits? rest
      | rest => skipDigits? rest
    else some (e :: rest)
  | [] => some []

def skipNumber? (cs : List Char) : Option (List Char) := do
  let unsigned :=
    match cs with
    | '-' :: rest => rest
    | _ => cs
  skipExponent? (← skipFraction? (← skipWhole? unsigned))

def skipWord? : List Char → List Char → Option (List Char)
  | [], cs => some cs
  | w :: ws, c :: cs => if w = c then skipWord? ws cs else none
  | _ :: _, [] => none

/-- The number that these digits stand for. -/
def decimal (digits : List Char) : Nat :=
  digits.foldl (fun n d => n * 10 + (d.toNat - '0'.toNat)) 0

/-- A number without sign, fraction or exponent that fits into a machine word, after blanks. -/
def natural? (cs : List Char) : Option (Nat × List Char) :=
  let cs := skipBlank cs
  match skipWhole? cs with
  | none => none
  | some rest =>
    let n := decimal (cs.takeWhile isDigit)
    match rest with
    | '.' :: _ | 'e' :: _ | 'E' :: _ => none
    | _ => if n < UInt64.size then some (n, rest) else none

/-! ## What scanners leave -/

theorem length_dropWhile_le (p : Char → Bool) (cs : List Char) :
    (cs.dropWhile p).length ≤ cs.length :=
  (List.dropWhile_sublist p).length_le

theorem length_skipBlank_le (cs : List Char) : (skipBlank cs).length ≤ cs.length :=
  length_dropWhile_le isBlank cs

/-- A string that is skipped takes its closing quote at least. -/
theorem length_of_skipString? {cs rest : List Char} (h : skipString? cs = some rest) :
    rest.length < cs.length := by
  fun_induction skipString? cs with
  | case1 => simp at h
  | case2 => simp_all
  | case3 a b c d r n hn ih => exact Nat.lt_trans (ih h) (by simp only [List.length_cons]; omega)
  | case4 => simp at h
  | case5 c r e hc hu ih => exact Nat.lt_trans (ih h) (by simp only [List.length_cons]; omega)
  | case6 => simp at h
  | case7 => simp at h
  | case8 c r _ _ _ hc ih => exact Nat.lt_trans (ih h) (by simp)

theorem length_of_skipDigits? {cs rest : List Char} (h : skipDigits? cs = some rest) :
    rest.length < cs.length := by
  match cs, h with
  | d :: r, h =>
    by_cases hd : isDigit d = true
    · simp only [skipDigits?, hd, if_true, Option.some.injEq] at h
      subst h
      exact Nat.lt_succ_of_le (length_dropWhile_le isDigit r)
    · simp [skipDigits?, hd] at h
  | [], h => simp [skipDigits?] at h

theorem length_of_skipWhole? {cs rest : List Char} (h : skipWhole? cs = some rest) :
    rest.length < cs.length := by
  unfold skipWhole? at h
  split at h
  · split at h
    · simp at h
    · simp only [Option.some.injEq] at h
      simp [← h]
  · exact length_of_skipDigits? h

theorem length_of_skipFraction? {cs rest : List Char} (h : skipFraction? cs = some rest) :
    rest.length ≤ cs.length := by
  unfold skipFraction? at h
  split at h
  · exact Nat.le_of_lt (Nat.lt_trans (length_of_skipDigits? h) (by simp))
  · simp_all

theorem length_of_skipExponent? {cs rest : List Char} (h : skipExponent? cs = some rest) :
    rest.length ≤ cs.length := by
  unfold skipExponent? at h
  split at h
  · split at h
    · split at h
      all_goals
        exact Nat.le_of_lt (Nat.lt_of_lt_of_le (length_of_skipDigits? h) (by simp; try omega))
    · simp_all
  · simp_all

/-- A number that is skipped takes one digit at least. -/
theorem length_of_skipNumber? {cs rest : List Char} (h : skipNumber? cs = some rest) :
    rest.length < cs.length := by
  simp only [skipNumber?, bind, Option.bind_eq_some_iff] at h
  obtain ⟨a, ha, b, hb, h⟩ := h
  have h1 := length_of_skipWhole? ha
  have h2 := length_of_skipFraction? hb
  have h3 := length_of_skipExponent? h
  split at h1
  · simp only [List.length_cons]
    omega
  · omega

theorem length_of_skipWord? {word cs rest : List Char} (h : skipWord? word cs = some rest) :
    rest.length + word.length = cs.length := by
  induction word generalizing cs with
  | nil => simp_all [skipWord?]
  | cons w ws ih =>
    match cs, h with
    | c :: cs, h =>
      by_cases hwc : w = c
      · have := ih (by simpa [skipWord?, hwc] using h)
        simp only [List.length_cons]
        omega
      · simp [skipWord?, hwc] at h
    | [], h => simp [skipWord?] at h

/-! ## Whole values -/

inductive Bracket
  | list
  | members
  deriving DecidableEq

/-- What has to come next: a value, a key, or what may stand after a value. -/
inductive Expected
  | value
  | key
  | after
  deriving DecidableEq

/-- The rest after a value that is not in brackets. -/
def skipAtom? : List Char → Option (List Char)
  | '"' :: rest => skipString? rest
  | 't' :: rest => skipWord? ['r', 'u', 'e'] rest
  | 'f' :: rest => skipWord? ['a', 'l', 's', 'e'] rest
  | 'n' :: rest => skipWord? ['u', 'l', 'l'] rest
  | cs => skipNumber? cs

theorem length_of_skipAtom? {cs rest : List Char} (h : skipAtom? cs = some rest) :
    rest.length < cs.length := by
  unfold skipAtom? at h
  split at h
  · exact Nat.lt_trans (length_of_skipString? h) (by simp)
  · have := length_of_skipWord? h
    simp only [List.length_cons] at this ⊢
    omega
  · have := length_of_skipWord? h
    simp only [List.length_cons] at this ⊢
    omega
  · have := length_of_skipWord? h
    simp only [List.length_cons] at this ⊢
    omega
  · exact length_of_skipNumber? h

/-- How a value of no interest goes on: it is complete, or something is expected inside these
brackets. -/
inductive Turn
  | done (rest : List Char)
  | more (brackets : List Bracket) (expected : Expected) (rest : List Char)

/-- A bracket was opened: it is closed at once, or its content is expected. -/
def openBracket (b : Bracket) (first : Expected) (close : Char) (brackets : List Bracket)
    (cs : List Char) : Turn :=
  match skipBlank cs with
  | c :: rest => if c = close then .more brackets .after rest else .more (b :: brackets) first cs
  | [] => .more (b :: brackets) first cs

/-- Go on with a value: open a bracket, or skip a value that is not in brackets. -/
def valueTurn? (brackets : List Bracket) : List Char → Option Turn
  | '[' :: rest => some (openBracket .list .value ']' brackets rest)
  | '\x7b' :: rest => some (openBracket .members .key '\x7d' brackets rest)
  | cs => (skipAtom? cs).map (.more brackets .after)

/-- Go on with a key and the colon after it. -/
def keyTurn? (brackets : List Bracket) : List Char → Option Turn
  | '"' :: rest =>
    (skipString? rest).bind fun rest =>
      match skipBlank rest with
      | ':' :: rest => some (.more brackets .value rest)
      | _ => none
  | _ => none

/-- Go on after a value: the next one inside the innermost bracket, or its end. -/
def afterTurn? (cs : List Char) : List Bracket → Option Turn
  | [] => some (.done cs)
  | .list :: outer =>
    match skipBlank cs with
    | ',' :: rest => some (.more (.list :: outer) .value rest)
    | ']' :: rest => some (.more outer .after rest)
    | _ => none
  | .members :: outer =>
    match skipBlank cs with
    | ',' :: rest => some (.more (.members :: outer) .key rest)
    | '\x7d' :: rest => some (.more outer .after rest)
    | _ => none

def turn? (brackets : List Bracket) (expected : Expected) (cs : List Char) : Option Turn :=
  match expected with
  | .value => valueTurn? brackets (skipBlank cs)
  | .key => keyTurn? brackets (skipBlank cs)
  | .after => afterTurn? cs brackets

theorem length_of_openBracket {b : Bracket} {first e : Expected} {close : Char}
    {brackets bs : List Bracket} {cs rest : List Char}
    (h : openBracket b first close brackets cs = .more bs e rest) : rest.length ≤ cs.length := by
  have hb := length_skipBlank_le cs
  unfold openBracket at h
  split at h
  · next hs =>
    rw [hs, List.length_cons] at hb
    split at h <;> simp only [Turn.more.injEq] at h <;> obtain ⟨_, _, rfl⟩ := h <;> omega
  · simp only [Turn.more.injEq] at h
    exact Nat.le_of_eq (congrArg List.length h.2.2.symm)

theorem length_of_valueTurn? {brackets bs : List Bracket} {e : Expected} {cs rest : List Char}
    (h : valueTurn? brackets cs = some (.more bs e rest)) : rest.length < cs.length := by
  unfold valueTurn? at h
  split at h
  · exact Nat.lt_succ_of_le (length_of_openBracket (Option.some.inj h))
  · exact Nat.lt_succ_of_le (length_of_openBracket (Option.some.inj h))
  · obtain ⟨r, hr, hm⟩ := Option.map_eq_some_iff.mp h
    simp only [Turn.more.injEq] at hm
    exact hm.2.2 ▸ length_of_skipAtom? hr

theorem length_of_keyTurn? {brackets bs : List Bracket} {e : Expected} {cs rest : List Char}
    (h : keyTurn? brackets cs = some (.more bs e rest)) : rest.length < cs.length := by
  unfold keyTurn? at h
  split at h
  · obtain ⟨r, hr, hm⟩ := Option.bind_eq_some_iff.mp h
    have hs := length_of_skipString? hr
    have hb := length_skipBlank_le r
    split at hm
    · next hc =>
      simp only [Option.some.injEq, Turn.more.injEq] at hm
      rw [hc, List.length_cons, hm.2.2] at hb
      simp only [List.length_cons]
      omega
    · simp at hm
  · simp at h

theorem length_of_afterTurn? {brackets bs : List Bracket} {e : Expected} {cs rest : List Char}
    (h : afterTurn? cs brackets = some (.more bs e rest)) : rest.length < cs.length := by
  have hb := length_skipBlank_le cs
  unfold afterTurn? at h
  split at h
  · simp at h
  all_goals
    split at h
    · next hs =>
      simp only [Option.some.injEq, Turn.more.injEq] at h
      rw [hs, List.length_cons, h.2.2] at hb
      omega
    · next hs =>
      simp only [Option.some.injEq, Turn.more.injEq] at h
      rw [hs, List.length_cons, h.2.2] at hb
      omega
    · simp at h

/-- Every turn takes a character at least. -/
theorem length_of_turn? {brackets bs : List Bracket} {expected e : Expected} {cs rest : List Char}
    (h : turn? brackets expected cs = some (.more bs e rest)) : rest.length < cs.length := by
  have hb := length_skipBlank_le cs
  cases expected with
  | value => exact Nat.lt_of_lt_of_le (length_of_valueTurn? h) hb
  | key => exact Nat.lt_of_lt_of_le (length_of_keyTurn? h) hb
  | after => exact length_of_afterTurn? h

/-- The rest after what is expected and after all brackets that are open. -/
def skipFrom? (brackets : List Bracket) (expected : Expected) (cs : List Char) :
    Option (List Char) :=
  match _h : turn? brackets expected cs with
  | none => none
  | some (.done rest) => some rest
  | some (.more bs e rest) => skipFrom? bs e rest
termination_by cs.length
decreasing_by exact length_of_turn? _h

/-- The rest after a value of any kind. -/
def skipValue? (cs : List Char) : Option (List Char) := skipFrom? [] .value cs

end ForeignTypes.Json
