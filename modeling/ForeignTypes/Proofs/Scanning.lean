import ForeignTypes.Json.Scan
import ForeignTypes.Proofs.Grammar
import Mathlib.Data.List.Basic
import Mathlib.Data.Nat.Init

/-!
# Scanners follow the grammar

A scanner that begins at a text of the grammar stops exactly where that text ends, whatever comes
after.  Only a number does not show its own end, and so a value is read up to a character that no
number goes on with, as there is after every value inside a text.

* `Ends` — what may stand after a value inside a text.
* `stringAfter?_spells`, `string?_quote` — a string is read as the characters it stands for, however
  it is written.
* `skipString?_text`, `skipNumber?_text` — the parts of a value of no interest.
* `natural?_digits` — a number that is written in base ten is read as itself.
* **`skipFrom?_value`** — a value of any kind is skipped inside any brackets.
* `skipValue?_text` — and so is a value by itself.
* `MembersOf.head` — members without the blanks before them, which is where they are read from.
-/

namespace ForeignTypes.Json

variable {cs v rest : List Char}

/-! ## Blanks -/

lemma isBlank_iff {c : Char} : isBlank c = true ↔ c ∈ blankChars := by
  simp [isBlank, blankChars, or_assoc]

lemma skipBlank_blanks (h : Blanks cs) (rest : List Char) :
    skipBlank (cs ++ rest) = skipBlank rest :=
  List.dropWhile_append_of_pos fun c hc => isBlank_iff.mpr (h c hc)

lemma skipBlank_cons {c : Char} (h : isBlank c = false) (rest : List Char) :
    skipBlank (c :: rest) = c :: rest := by
  simp [skipBlank, h]

/-- What may stand after a value inside a text: nothing, a blank, or what ends a member. -/
def Ends (cs : List Char) : Prop := ∀ c ∈ cs.head?, c ∈ blankChars ++ [',', ']', '\x7d']

lemma ends_cons {c : Char} (h : c ∈ blankChars ++ [',', ']', '\x7d']) (cs : List Char) :
    Ends (c :: cs) :=
  fun _ hd => Option.some.inj hd ▸ h

lemma Ends.append (hrest : Ends rest) (h : Blanks cs) : Ends (cs ++ rest) := by
  cases cs with
  | nil => exact hrest
  | cons c cs =>
      intro d hd
      obtain rfl : c = d := by simpa using hd
      exact List.mem_append_left _ (h c List.mem_cons_self)

/-! ## Strings -/

lemma hexDigit?_eq_some {c : Char} {n : Nat} (h : HexDigit c n) : hexDigit? c = some n := by
  have hn : n < 16 := by
    rcases h with h | h
    all_goals exact (List.getElem?_eq_some_iff.mp h).1
  have hlower : ∀ n < 16, "0123456789abcdef".toList[n]?.bind hexDigit? = some n := by decide
  have hupper : ∀ n < 16, "0123456789ABCDEF".toList[n]?.bind hexDigit? = some n := by decide
  rcases h with h | h
  · exact (congrArg (Option.bind · hexDigit?) h).symm.trans (hlower n hn)
  · exact (congrArg (Option.bind · hexDigit?) h).symm.trans (hupper n hn)

lemma hex4?_eq_some {a b c d : Char} {i j k l : Nat} (ha : HexDigit a i) (hb : HexDigit b j)
    (hc : HexDigit c k) (hd : HexDigit d l) :
    hex4? a b c d = some (((i * 16 + j) * 16 + k) * 16 + l) := by
  simp [hex4?, hexDigit?_eq_some ha, hexDigit?_eq_some hb, hexDigit?_eq_some hc,
    hexDigit?_eq_some hd]

lemma simpleEscape?_eq_some {e c : Char} (h : (e, c) ∈ simpleEscapes) :
    simpleEscape? e = some c ∧ e ≠ 'u' :=
  (by decide : ∀ p ∈ simpleEscapes, simpleEscape? p.1 = some p.2 ∧ p.1 ≠ 'u') _ h

/-- A character is no half of a pair of code units. -/
lemma toNat_not_half (c : Char) : ¬(0xD800 ≤ c.toNat ∧ c.toNat < 0xE000) := by
  have := c.valid
  simp only [UInt32.isValidChar, Nat.isValidChar, Char.toNat] at this ⊢
  omega

/-- Half of a pair of code units is always written by its number. -/
lemma Piece.of_half {piece : List Char} {n : Nat} (h : Piece piece n)
    (hn : 0xD800 ≤ n ∧ n < 0xE000) :
    ∃ a b c d, piece = ['\\', 'u', a, b, c, d] ∧ hex4? a b c d = some n := by
  cases h with
  | @plain c => exact absurd hn (toNat_not_half c)
  | @escape _ c => exact absurd hn (toNat_not_half c)
  | unit ha hb hc hd => exact ⟨_, _, _, _, rfl, hex4?_eq_some ha hb hc hd⟩

/-- A piece that is a character is read as that. -/
lemma stringAfter?_piece {piece : List Char} {c : Char} (h : Piece piece c.toNat)
    (read rest : List Char) :
    stringAfter? read (piece ++ rest) = stringAfter? (c :: read) rest := by
  have hhalf := toNat_not_half c
  generalize hn : c.toNat = n at h hhalf
  obtain rfl : Char.ofNat n = c := hn ▸ Char.ofNat_toNat c
  cases h with
  | plain hcontrol hquote hbackslash =>
      simp [stringAfter?, isControl, hbackslash, Nat.not_lt.mpr hcontrol]
  | escape h =>
      obtain ⟨h, hu⟩ := simpleEscape?_eq_some h
      simp [stringAfter?, h, hu]
  | @unit _ _ _ _ i j k l ha hb hc hd =>
      have hhigh : isHighHalf (((i * 16 + j) * 16 + k) * 16 + l) = false := by
        simp only [isHighHalf, decide_eq_false_iff_not]
        omega
      have hlow : isLowHalf (((i * 16 + j) * 16 + k) * 16 + l) = false := by
        simp only [isLowHalf, decide_eq_false_iff_not]
        omega
      simp [stringAfter?, hex4?_eq_some ha hb hc hd, hhigh, hlow]

/-- Two pieces that are a pair of code units are read as the character of that pair. -/
lemma stringAfter?_pair {first second : List Char} {c : Char} {high low : Nat}
    (hfirst : Piece first high) (hsecond : Piece second low)
    (hhigh : 0xD800 ≤ high ∧ high < 0xDC00) (hlow : 0xDC00 ≤ low ∧ low < 0xE000)
    (hc : c.toNat = 0x10000 + (high - 0xD800) * 0x400 + (low - 0xDC00)) (read rest : List Char) :
    stringAfter? read (first ++ (second ++ rest)) = stringAfter? (c :: read) rest := by
  obtain ⟨_, _, _, _, rfl, hunits⟩ := hfirst.of_half (by omega)
  obtain ⟨_, _, _, _, rfl, hunits'⟩ := hsecond.of_half (by omega)
  have hpair : pairChar high low = c := by rw [pairChar, ← hc, Char.ofNat_toNat]
  simp [stringAfter?, hunits, hunits', isHighHalf, isLowHalf, hhigh, hlow, hpair]

/-- The text of a string is read as the characters that it stands for, up to its quote. -/
lemma stringAfter?_spells {s : List Char} (h : Spells s cs) (read rest : List Char) :
    stringAfter? read (cs ++ '"' :: rest) = some (read.reverse ++ s, rest) := by
  induction h generalizing read with
  | nil => simp [stringAfter?]
  | char h _ ih =>
      rw [List.append_assoc, stringAfter?_piece h, ih]
      simp
  | pair hfirst hsecond hhigh hlow hc _ ih =>
      rw [List.append_assoc, List.append_assoc, stringAfter?_pair hfirst hsecond hhigh hlow hc, ih]
      simp

lemma quote_append (cs rest : List Char) : quote cs ++ rest = '"' :: (cs ++ '"' :: rest) := by
  simp [quote]

lemma string?_quote {s : String} (h : Spells s.toList cs) (rest : List Char) :
    string? (quote cs ++ rest) = some (s, rest) := by
  rw [quote_append, string?, skipBlank_cons rfl]
  simp [stringAfter?_spells h]

lemma skipString?_piece {piece : List Char} {n : Nat} (h : Piece piece n) (rest : List Char) :
    skipString? (piece ++ rest) = skipString? rest := by
  cases h with
  | plain hcontrol hquote hbackslash =>
      simp [skipString?, isControl, hbackslash, Nat.not_lt.mpr hcontrol]
  | escape h =>
      obtain ⟨h, hu⟩ := simpleEscape?_eq_some h
      simp [skipString?, h, hu]
  | unit ha hb hc hd => simp [skipString?, hex4?_eq_some ha hb hc hd]

lemma skipString?_text (h : StringText cs) (rest : List Char) :
    skipString? (cs ++ '"' :: rest) = some rest := by
  induction h with
  | nil => simp [skipString?]
  | piece h _ ih => rw [List.append_assoc, skipString?_piece h, ih]

/-! ## Numbers and words -/

lemma isDigit_eq (c : Char) : isDigit c = c.isDigit := by
  rw [isDigit, Bool.decide_and]
  rfl

lemma not_mem_of_isDigit {c : Char} {l : List Char} (h : c.isDigit = true)
    (hl : l.any Char.isDigit = false) : c ∉ l :=
  fun hc => List.any_eq_false.mp hl c hc h

lemma isBlank_of_isDigit {c : Char} (h : c.isDigit = true) : isBlank c = false := by
  rw [← Bool.not_eq_true, isBlank_iff]
  exact not_mem_of_isDigit h (by decide)

/-- No digit comes next. -/
def NoDigit (cs : List Char) : Prop := ∀ c ∈ cs.head?, c.isDigit = false

lemma Ends.head (h : Ends cs) : ∀ c ∈ cs.head?, c.isDigit = false ∧ c ∉ ['.', 'e', 'E'] := by
  intro c hc
  have hend := h c hc
  simp only [blankChars, List.cons_append, List.nil_append, List.mem_cons, List.not_mem_nil,
    or_false] at hend
  rcases hend with rfl | rfl | rfl | rfl | rfl | rfl | rfl
  all_goals decide

lemma Digits.exists_cons (h : Digits cs) : ∃ d ds, cs = d :: ds ∧ d.isDigit = true := by
  obtain ⟨d, ds, rfl⟩ := List.exists_cons_of_ne_nil h.1
  exact ⟨d, ds, rfl, h.2 d List.mem_cons_self⟩

lemma Digits.append_ne (h : Digits cs) {c : Char} (hc : c.isDigit = false) {tail : List Char} :
    cs ++ rest ≠ c :: tail := by
  obtain ⟨d, ds, rfl, hd⟩ := h.exists_cons
  rintro heq
  obtain ⟨rfl, -⟩ := List.cons.inj heq
  simp [hc] at hd

lemma dropWhile_isDigit (h : ∀ c ∈ cs, c.isDigit = true) (hrest : NoDigit rest) :
    (cs ++ rest).dropWhile isDigit = rest := by
  rw [List.dropWhile_append_of_pos fun c hc => (isDigit_eq c).trans (h c hc)]
  cases rest with
  | nil => rfl
  | cons c rest => simp [isDigit_eq, hrest c rfl]

lemma takeWhile_isDigit (h : ∀ c ∈ cs, c.isDigit = true) (hrest : NoDigit rest) :
    (cs ++ rest).takeWhile isDigit = cs := by
  rw [List.takeWhile_append_of_pos fun c hc => (isDigit_eq c).trans (h c hc)]
  cases rest with
  | nil => simp
  | cons c rest => simp [isDigit_eq, hrest c rfl]

lemma skipDigits?_digits (h : Digits cs) (hrest : NoDigit rest) :
    skipDigits? (cs ++ rest) = some rest := by
  obtain ⟨d, ds, rfl, hd⟩ := h.exists_cons
  rw [List.cons_append, skipDigits?, if_pos ((isDigit_eq d).trans hd),
    dropWhile_isDigit (fun c hc => h.2 c (List.mem_cons_of_mem d hc)) hrest]

lemma skipWhole?_whole (h : Whole cs) (hrest : NoDigit rest) :
    skipWhole? (cs ++ rest) = some rest := by
  obtain ⟨hdigits, hzero⟩ := h
  have hskip := skipDigits?_digits hdigits hrest
  by_cases hhead : cs.head? = some '0'
  · obtain rfl := hzero hhead
    cases rest with
    | nil => exact hskip
    | cons c rest => simp [skipWhole?, isDigit_eq, hrest c rfl]
  · rw [skipWhole?, hskip]
    rintro d tail heq
    exact hhead (by rw [← List.head?_append_of_ne_nil cs hdigits.1, heq, List.head?_cons])

lemma skipFraction?_fraction (h : Fraction cs) (hrest : NoDigit rest)
    (hpoint : rest.head? ≠ some '.') : skipFraction? (cs ++ rest) = some rest := by
  cases h with
  | some h => exact skipDigits?_digits h hrest
  | none =>
      rw [List.nil_append, skipFraction?]
      rintro tail rfl
      exact hpoint rfl

lemma skipExponent?_exponent (h : Exponent cs) (hrest : Ends rest) :
    skipExponent? (cs ++ rest) = some rest := by
  cases h with
  | none =>
      cases rest with
      | nil => rfl
      | cons c rest =>
          have hc := (hrest.head c rfl).2
          simp_all [skipExponent?]
  | @some e sign ds he hsign h =>
      have hskip := skipDigits?_digits h fun c hc => (hrest.head c hc).1
      rcases hsign with rfl | rfl | rfl
      · rw [List.nil_append, List.cons_append, skipExponent?, if_pos he, hskip]
        · exact fun _ => h.append_ne rfl
        · exact fun _ => h.append_ne rfl
      · simpa [skipExponent?, he] using hskip
      · simpa [skipExponent?, he] using hskip

/-- The fraction and the exponent of a number go on with no digit. -/
lemma noDigit_exponent (h : Exponent cs) (hrest : Ends rest) :
    ∀ c ∈ (cs ++ rest).head?, c.isDigit = false ∧ c ≠ '.' := by
  cases h with
  | none =>
      intro c hc
      obtain ⟨hdigit, hother⟩ := hrest.head c hc
      exact ⟨hdigit, by rintro rfl; simp at hother⟩
  | some he =>
      intro c hc
      obtain rfl := Option.some.inj hc
      rcases he with rfl | rfl
      all_goals decide

lemma noDigit_fraction (h : Fraction cs) (hrest : NoDigit rest) : NoDigit (cs ++ rest) := by
  cases h with
  | none => exact hrest
  | some => exact fun c hc => Option.some.inj hc ▸ rfl

/-- A number begins with none of the characters that other values begin with. -/
lemma NumberText.exists_cons (h : NumberText cs) : ∃ c tail, cs = c :: tail ∧
    isBlank c = false ∧ c ∉ ['"', 't', 'f', 'n', '[', ']', '\x7b'] := by
  obtain ⟨hsign, hwhole, _, _⟩ := h
  rcases hsign with rfl | rfl
  · obtain ⟨d, ds, rfl, hd⟩ := hwhole.1.exists_cons
    exact ⟨d, _, rfl, isBlank_of_isDigit hd, not_mem_of_isDigit hd (by decide)⟩
  · exact ⟨'-', _, rfl, by decide, by decide⟩

lemma skipNumber?_text (h : NumberText cs) (hrest : Ends rest) :
    skipNumber? (cs ++ rest) = some rest := by
  obtain @⟨sign, whole, fraction, exponent, hsign, hwhole, hfraction, hexponent⟩ := h
  have hstop := noDigit_exponent hexponent hrest
  have hdigits : NoDigit (exponent ++ rest) := fun c hc => (hstop c hc).1
  have h1 := skipWhole?_whole hwhole (noDigit_fraction hfraction hdigits)
  have h2 := skipFraction?_fraction hfraction hdigits fun hc => (hstop '.' hc).2 rfl
  have h3 := skipExponent?_exponent hexponent hrest
  simp only [List.append_assoc]
  rcases hsign with rfl | rfl
  · unfold skipNumber?
    split
    · next heq => exact absurd heq (hwhole.1.append_ne rfl)
    · simp [h1, h2, h3]
  · simp [skipNumber?, h1, h2, h3]

lemma skipWord?_append (word rest : List Char) : skipWord? word (word ++ rest) = some rest := by
  induction word with
  | nil => rfl
  | cons w ws ih => simpa [skipWord?] using ih

/-! ## Numbers in base ten -/

/-- The digits of a positive number do not begin with a zero. -/
lemma head?_toDigits {n : Nat} (hn : 0 < n) : (Nat.toDigits 10 n).head? ≠ some '0' := by
  induction n using Nat.strong_induction_on with
  | _ n ih =>
      by_cases hten : n < 10
      · have hdigit : ∀ n < 10, 0 < n → n.digitChar ≠ '0' := by decide
        simpa [Nat.toDigits_of_lt_base hten] using hdigit n hten hn
      · rw [Nat.toDigits_of_base_le (by decide) (Nat.not_lt.mp hten),
          List.head?_append_of_ne_nil _ Nat.toDigits_ne_nil]
        exact ih (n / 10) (by omega) (by omega)

lemma whole_toDigits (n : Nat) : Whole (Nat.toDigits 10 n) := by
  refine ⟨⟨Nat.toDigits_ne_nil, fun c => Nat.isDigit_of_mem_toDigits (by decide) (by decide)⟩, ?_⟩
  intro hzero
  rcases Nat.eq_zero_or_pos n with rfl | hn
  · rfl
  · exact absurd hzero (head?_toDigits hn)

lemma decimal_toDigits (n : Nat) : decimal (Nat.toDigits 10 n) = n := by
  have h := Nat.ofDigitChars_toDigits (n := n) (b := 10) (by decide) (by decide)
  simpa [decimal, Nat.ofDigitChars, Nat.mul_comm] using h

lemma natural?_digits {n : Nat} (hn : n < UInt64.size) (hrest : Ends rest) :
    natural? (Nat.toDigits 10 n ++ rest) = some (n, rest) := by
  have hwhole := whole_toDigits n
  have hdigits : NoDigit rest := fun c hc => (hrest.head c hc).1
  have hblank : skipBlank (Nat.toDigits 10 n ++ rest) = Nat.toDigits 10 n ++ rest := by
    obtain ⟨d, ds, heq, hd⟩ := hwhole.1.exists_cons
    rw [heq, List.cons_append, skipBlank_cons (isBlank_of_isDigit hd)]
  rw [natural?]
  simp only [hblank, skipWhole?_whole hwhole hdigits, takeWhile_isDigit hwhole.1.2 hdigits,
    decimal_toDigits, if_pos hn]
  split
  · exact absurd ((hrest.head _ rfl).2) (by decide)
  · exact absurd ((hrest.head _ rfl).2) (by decide)
  · exact absurd ((hrest.head _ rfl).2) (by decide)
  · rfl

/-! ## Whole values -/

/-- A value begins with a character that is no blank and closes no bracket. -/
lemma ValueText.exists_cons (h : ValueText v) :
    ∃ c tail, v = c :: tail ∧ isBlank c = false ∧ c ≠ ']' := by
  cases h with
  | word h =>
      simp only [List.mem_cons, List.not_mem_nil, or_false] at h
      rcases h with rfl | rfl | rfl
      all_goals exact ⟨_, _, rfl, by decide, by decide⟩
  | number h =>
      obtain ⟨c, tail, rfl, hblank, hc⟩ := h.exists_cons
      exact ⟨c, tail, rfl, hblank, by rintro rfl; exact hc (by decide)⟩
  | string => exact ⟨_, _, rfl, by decide, by decide⟩
  | emptyList => exact ⟨_, _, rfl, by decide, by decide⟩
  | list => exact ⟨_, _, rfl, by decide, by decide⟩
  | emptyObject => exact ⟨_, _, rfl, by decide, by decide⟩
  | object => exact ⟨_, _, rfl, by decide, by decide⟩

variable {b : Bracket} {bs bs' : List Bracket} {e e' : Expected}

lemma skipFrom?_more (h : turn? bs e cs = some (.more bs' e' rest)) :
    skipFrom? bs e cs = skipFrom? bs' e' rest := by
  rw [skipFrom?]
  split
  all_goals simp_all

lemma skipFrom?_done (cs : List Char) : skipFrom? [] .after cs = some cs := by
  rw [skipFrom?]
  rfl

lemma skipFrom?_congr {cs' : List Char} (h : turn? bs e cs = turn? bs e cs') :
    skipFrom? bs e cs = skipFrom? bs e cs' := by
  rw [skipFrom?, skipFrom?, h]

/-- Blanks before a value do not matter. -/
lemma skipFrom?_blanks (h : Blanks cs) (rest : List Char) :
    skipFrom? bs .value (cs ++ rest) = skipFrom? bs .value rest :=
  skipFrom?_congr (by rw [turn?, turn?, skipBlank_blanks h])

/-- Nor do they after a value in brackets. -/
lemma skipFrom?_after_blanks (h : Blanks cs) (rest : List Char) :
    skipFrom? (b :: bs) .after (cs ++ rest) = skipFrom? (b :: bs) .after rest := by
  refine skipFrom?_congr ?_
  cases b
  all_goals simp only [turn?, afterTurn?, skipBlank_blanks h]

/-- What is read as one value without brackets may stand for a value. -/
lemma skipFrom?_atom {c : Char} {tail : List Char} (hc : isBlank c = false ∧ c ≠ '[' ∧ c ≠ '\x7b')
    (h : skipAtom? (c :: tail) = some rest) :
    skipFrom? bs .value (c :: tail) = skipFrom? bs .after rest := by
  refine skipFrom?_more ?_
  simp [turn?, valueTurn?, skipBlank_cons hc.1, hc.2, h]

lemma skipAtom?_number (h : NumberText cs) (hrest : Ends rest) :
    skipAtom? (cs ++ rest) = some rest := by
  have hskip := skipNumber?_text h hrest
  obtain ⟨c, tail, rfl, -, hc⟩ := h.exists_cons
  rw [List.cons_append] at hskip ⊢
  rw [skipAtom?, hskip]
  all_goals
    intro rest heq
    obtain ⟨rfl, -⟩ := List.cons.inj heq
    exact hc (by decide)

/-- Inside these brackets the text is skipped as a value. -/
def Skipped (bs : List Bracket) (v : List Char) : Prop :=
  ∀ rest, Ends rest → skipFrom? bs .value (v ++ rest) = skipFrom? bs .after rest

lemma skipFrom?_padded (h : Padded v cs) (hv : Skipped (b :: bs) v) (hrest : Ends rest) :
    skipFrom? (b :: bs) .value (cs ++ rest) = skipFrom? (b :: bs) .after rest := by
  obtain @⟨before, after, hbefore, hafter⟩ := h
  calc skipFrom? (b :: bs) .value (before ++ (v ++ after) ++ rest)
      = skipFrom? (b :: bs) .value (v ++ (after ++ rest)) := by
        rw [List.append_assoc, List.append_assoc, skipFrom?_blanks hbefore]
    _ = skipFrom? (b :: bs) .after (after ++ rest) := hv _ (hrest.append hafter)
    _ = skipFrom? (b :: bs) .after rest := skipFrom?_after_blanks hafter rest

lemma skipFrom?_member {key : List Char} (hkey : StringText key) (h : MemberText key v cs)
    (hv : Skipped (b :: bs) v) (hrest : Ends rest) :
    skipFrom? (b :: bs) .key (cs ++ rest) = skipFrom? (b :: bs) .after rest := by
  obtain @⟨left, right, hleft, hright⟩ := h
  obtain @⟨before, after, hbefore, hafter⟩ := hleft
  rw [← skipFrom?_padded hright hv hrest]
  refine skipFrom?_more ?_
  simp only [List.append_assoc, List.cons_append, quote_append]
  rw [turn?, skipBlank_blanks hbefore, skipBlank_cons (by decide), keyTurn?, skipString?_text hkey,
    Option.bind_some, skipBlank_blanks hafter, skipBlank_cons (by decide)]
  rfl

/-! ### Brackets -/

lemma openBracket_closed {first : Expected} {close : Char} (h : Blanks cs)
    (hclose : isBlank close = false) :
    openBracket b first close bs (cs ++ close :: rest) = .more bs .after rest := by
  simp [openBracket, skipBlank_blanks h, skipBlank_cons hclose]

lemma openBracket_content {first : Expected} {close c : Char} {tail : List Char}
    (h : skipBlank cs = c :: tail) (hc : c ≠ close) :
    openBracket b first close bs cs = .more (b :: bs) first cs := by
  simp [openBracket, h, hc]

lemma Padded.skipBlank_eq {c : Char} {tail : List Char} (h : Padded (c :: tail) cs)
    (hc : isBlank c = false) (rest : List Char) : ∃ tail, skipBlank (cs ++ rest) = c :: tail := by
  obtain ⟨hbefore, -⟩ := h
  rw [List.append_assoc, skipBlank_blanks hbefore]
  exact ⟨_, skipBlank_cons hc _⟩

lemma ElementsText.head (h : ElementsText cs) (rest : List Char) :
    ∃ c tail, skipBlank (cs ++ rest) = c :: tail ∧ c ≠ ']' := by
  cases h with
  | last hv h =>
      obtain ⟨c, tail, rfl, hblank, hc⟩ := hv.exists_cons
      obtain ⟨tail, heq⟩ := h.skipBlank_eq hblank rest
      exact ⟨c, tail, heq, hc⟩
  | cons hv h _ =>
      obtain ⟨c, tail, rfl, hblank, hc⟩ := hv.exists_cons
      rw [List.append_assoc]
      obtain ⟨tail, heq⟩ := h.skipBlank_eq hblank _
      exact ⟨c, tail, heq, hc⟩

/-- The text of a member without the blanks before its key. -/
lemma MemberText.head {key : List Char} (h : MemberText key v cs) :
    ∃ tail, MemberText key v ('"' :: tail) ∧
      ∀ rest, skipBlank (cs ++ rest) = '"' :: (tail ++ rest) := by
  obtain @⟨left, right, hleft, hright⟩ := h
  obtain @⟨before, after, hbefore, hafter⟩ := hleft
  have hleft : Padded (quote key) ([] ++ (quote key ++ after)) := .mk (by simp [Blanks]) hafter
  refine ⟨key ++ '"' :: (after ++ ':' :: right), ?_, fun rest => ?_⟩
  · simpa [quote] using MemberText.mk hleft hright
  · simp only [List.append_assoc, List.cons_append, skipBlank_blanks hbefore, quote_append]
    exact skipBlank_cons rfl _

lemma MembersText.head (h : MembersText cs) (rest : List Char) :
    ∃ tail, skipBlank (cs ++ rest) = '"' :: tail := by
  cases h with
  | last _ _ h =>
      obtain ⟨tail, -, heq⟩ := h.head
      exact ⟨_, heq rest⟩
  | cons _ _ h _ =>
      obtain ⟨tail, -, heq⟩ := h.head
      rw [List.append_assoc]
      exact ⟨_, heq _⟩

-- The induction is on the text, for all brackets around it at once: a bracket that is opened in a
-- value is one of those around its elements or members.
mutual

/-- **A value of any kind is skipped inside any brackets.** -/
theorem skipFrom?_value {v : List Char} (hv : ValueText v) (bs : List Bracket) : Skipped bs v :=
  fun rest hrest => match hv with
  | .word h => by
      simp only [List.mem_cons, List.not_mem_nil, or_false] at h
      rcases h with rfl | rfl | rfl
      all_goals exact skipFrom?_atom (by decide) (skipWord?_append _ rest)
  | .string h => by
      rw [quote_append]
      exact skipFrom?_atom (by decide) (skipString?_text h rest)
  | .number h => by
      have hskip := skipAtom?_number h hrest
      obtain ⟨c, tail, rfl, hblank, hc⟩ := h.exists_cons
      refine skipFrom?_atom ⟨hblank, ?_, ?_⟩ hskip
      all_goals
        rintro rfl
        exact hc (by decide)
  | .emptyList h => by
      rw [List.cons_append, List.append_assoc]
      exact skipFrom?_more (congrArg some (openBracket_closed h rfl))
  | .list h => by
      obtain ⟨c, tail, heq, hc⟩ := h.head (']' :: rest)
      rw [← skipFrom?_elements h bs rest, List.cons_append, List.append_assoc]
      exact skipFrom?_more (congrArg some (openBracket_content heq hc))
  | .emptyObject h => by
      rw [List.cons_append, List.append_assoc]
      exact skipFrom?_more (congrArg some (openBracket_closed h rfl))
  | .object h => by
      obtain ⟨tail, heq⟩ := h.head ('\x7d' :: rest)
      rw [← skipFrom?_members h bs rest, List.cons_append, List.append_assoc]
      exact skipFrom?_more (congrArg some (openBracket_content heq (by decide)))

/-- What a list holds is skipped up to its closing bracket. -/
theorem skipFrom?_elements {cs : List Char} (h : ElementsText cs) (bs : List Bracket)
    (rest : List Char) :
    skipFrom? (.list :: bs) .value (cs ++ ']' :: rest) = skipFrom? bs .after rest :=
  match h with
  | .last hv h => by
      rw [skipFrom?_padded h (skipFrom?_value hv _) (ends_cons (by decide) _)]
      exact skipFrom?_more rfl
  | .cons hv h htail => by
      rw [List.append_assoc, List.cons_append,
        skipFrom?_padded h (skipFrom?_value hv _) (ends_cons (by decide) _),
        ← skipFrom?_elements htail bs rest]
      exact skipFrom?_more rfl

/-- What an object holds is skipped up to its closing bracket. -/
theorem skipFrom?_members {cs : List Char} (h : MembersText cs) (bs : List Bracket)
    (rest : List Char) :
    skipFrom? (.members :: bs) .key (cs ++ '\x7d' :: rest) = skipFrom? bs .after rest :=
  match h with
  | .last hkey hv h => by
      rw [skipFrom?_member hkey h (skipFrom?_value hv _) (ends_cons (by decide) _)]
      exact skipFrom?_more rfl
  | .cons hkey hv h htail => by
      rw [List.append_assoc, List.cons_append,
        skipFrom?_member hkey h (skipFrom?_value hv _) (ends_cons (by decide) _),
        ← skipFrom?_members htail bs rest]
      exact skipFrom?_more rfl

end

theorem skipValue?_text (hv : ValueText v) (hrest : Ends rest) :
    skipValue? (v ++ rest) = some rest :=
  (skipFrom?_value hv [] rest hrest).trans (skipFrom?_done rest)

/-! ## Members -/

/-- The text of some members without the blanks before the first. -/
lemma MembersOf.head {members : List (String × List Char)} (h : MembersOf members cs) :
    ∃ tail, MembersOf members ('"' :: tail) ∧
      ∀ rest, skipBlank (cs ++ rest) = '"' :: (tail ++ rest) := by
  cases h with
  | last hkey h =>
      obtain ⟨tail, hmember, heq⟩ := h.head
      exact ⟨tail, .last hkey hmember, heq⟩
  | @cons _ _ _ _ others _ hkey h hothers =>
      obtain ⟨tail, hmember, heq⟩ := h.head
      refine ⟨tail ++ ',' :: others, .cons hkey hmember hothers, fun rest => ?_⟩
      rw [List.append_assoc, heq, List.append_assoc]

lemma MembersOf.length_le {members : List (String × List Char)} (h : MembersOf members cs) :
    members.length ≤ cs.length := by
  induction h with
  | last _ h =>
      obtain ⟨_, _⟩ := h
      simp only [List.length_cons, List.length_nil, List.length_append]
      omega
  | cons _ _ _ ih =>
      simp only [List.length_cons, List.length_append]
      omega

end ForeignTypes.Json
