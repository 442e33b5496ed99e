import Mathlib.Logic.Basic

/-!
# The grammar of JSON

What a JSON text is, said without a reader.  A text is a list of characters, and each part of the
grammar is the predicate of its texts; a part that stands for something is a relation between that
and its texts, so that one thing may have many of them.

* `Blanks`, `Padded` — blanks, and a text with blanks on either side.
* `Piece` — the ways to write one code unit or one character of a string.
* `StringText`, `Spells` — the strings that are well formed, and those that stand for some
  characters.
* `NumberText` — numbers.
* `ValueText` — values of any kind, nested to any depth.
* `MembersOf`, `ObjectText` — the texts of an object with these members, in this order.

A string is well formed even if it holds half of a pair of code units, but then it stands for no
characters.
-/

namespace ForeignTypes.Json

/-! ## Blanks -/

def blankChars : List Char := [' ', '\t', '\n', '\r']

def Blanks (cs : List Char) : Prop := ∀ c ∈ cs, c ∈ blankChars

/-- A text with blanks before and after it. -/
inductive Padded (text : List Char) : List Char → Prop
  | mk {before after : List Char} (hbefore : Blanks before) (hafter : Blanks after) :
    Padded text (before ++ (text ++ after))

lemma Padded.tight (text : List Char) : Padded text text := by
  have h : Padded text ([] ++ (text ++ [])) := .mk (by simp [Blanks]) (by simp [Blanks])
  simpa using h

/-! ## Strings -/

/-- A hexadecimal digit, in either case, and its value. -/
def HexDigit (c : Char) (n : Nat) : Prop :=
  "0123456789abcdef".toList[n]? = some c ∨ "0123456789ABCDEF".toList[n]? = some c

/-- The letters that may stand after a backslash, each with the character it stands for. -/
def simpleEscapes : List (Char × Char) :=
  [('"', '"'), ('\\', '\\'), ('/', '/'), ('b', '\x08'), ('f', '\x0c'), ('n', '\n'), ('r', '\r'),
    ('t', '\t')]

/-- A piece of a string: a character that stands for itself, a simple escape, or a code unit by its
number. -/
inductive Piece : List Char → Nat → Prop
  | plain {c : Char} (hcontrol : 0x20 ≤ c.toNat) (hquote : c ≠ '"') (hbackslash : c ≠ '\\') :
    Piece [c] c.toNat
  | escape {e c : Char} (h : (e, c) ∈ simpleEscapes) : Piece ['\\', e] c.toNat
  | unit {a b c d : Char} {i j k l : Nat} (ha : HexDigit a i) (hb : HexDigit b j)
    (hc : HexDigit c k) (hd : HexDigit d l) :
    Piece ['\\', 'u', a, b, c, d] (((i * 16 + j) * 16 + k) * 16 + l)

/-- The texts of strings, without their quotes. -/
inductive StringText : List Char → Prop
  | nil : StringText []
  | piece {piece rest : List Char} {n : Nat} (h : Piece piece n) (hrest : StringText rest) :
    StringText (piece ++ rest)

/-- The texts of a string of these characters, without quotes.  Each character is one piece, or two
that are a pair of code units. -/
inductive Spells : List Char → List Char → Prop
  | nil : Spells [] []
  | char {c : Char} {s piece rest : List Char} (h : Piece piece c.toNat) (hrest : Spells s rest) :
    Spells (c :: s) (piece ++ rest)
  | pair {c : Char} {s first second rest : List Char} {high low : Nat} (hfirst : Piece first high)
    (hsecond : Piece second low) (hhigh : 0xD800 ≤ high ∧ high < 0xDC00)
    (hlow : 0xDC00 ≤ low ∧ low < 0xE000)
    (hc : c.toNat = 0x10000 + (high - 0xD800) * 0x400 + (low - 0xDC00)) (hrest : Spells s rest) :
    Spells (c :: s) (first ++ (second ++ rest))

/-- Characters that may all stand for themselves. -/
lemma Spells.of_plain {cs : List Char}
    (h : (cs.all fun c => 0x20 ≤ c.toNat ∧ c ≠ '"' ∧ c ≠ '\\') = true) : Spells cs cs := by
  induction cs with
  | nil => exact .nil
  | cons c cs ih =>
      simp only [List.all_cons, Bool.and_eq_true, decide_eq_true_eq] at h
      obtain ⟨⟨hcontrol, hquote, hbackslash⟩, hrest⟩ := h
      exact .char (.plain hcontrol hquote hbackslash) (ih hrest)

/-- A string with its quotes. -/
def quote (cs : List Char) : List Char := '"' :: (cs ++ ['"'])

/-! ## Numbers -/

/-- One digit or more. -/
def Digits (cs : List Char) : Prop := cs ≠ [] ∧ ∀ c ∈ cs, c.isDigit = true

/-- The digits before the point: a zero stands there alone or not in front. -/
def Whole (cs : List Char) : Prop := Digits cs ∧ (cs.head? = some '0' → cs = ['0'])

inductive Fraction : List Char → Prop
  | none : Fraction []
  | some {ds : List Char} (h : Digits ds) : Fraction ('.' :: ds)

inductive Exponent : List Char → Prop
  | none : Exponent []
  | some {e : Char} {sign ds : List Char} (he : e = 'e' ∨ e = 'E')
    (hsign : sign = [] ∨ sign = ['+'] ∨ sign = ['-']) (h : Digits ds) :
    Exponent (e :: (sign ++ ds))

inductive NumberText : List Char → Prop
  | mk {sign whole fraction exponent : List Char} (hsign : sign = [] ∨ sign = ['-'])
    (hwhole : Whole whole) (hfraction : Fraction fraction) (hexponent : Exponent exponent) :
    NumberText (sign ++ (whole ++ (fraction ++ exponent)))

/-! ## Values -/

/-- A member of an object, with blanks between its parts. -/
inductive MemberText (key value : List Char) : List Char → Prop
  | mk {left right : List Char} (hleft : Padded (quote key) left) (hright : Padded value right) :
    MemberText key value (left ++ ':' :: right)

mutual

/-- The texts of values, without blanks around them. -/
inductive ValueText : List Char → Prop
  | word {w : List Char}
    (h : w ∈ [['n', 'u', 'l', 'l'], ['t', 'r', 'u', 'e'], ['f', 'a', 'l', 's', 'e']]) : ValueText w
  | string {cs : List Char} (h : StringText cs) : ValueText (quote cs)
  | number {cs : List Char} (h : NumberText cs) : ValueText cs
  | emptyList {cs : List Char} (h : Blanks cs) : ValueText ('[' :: (cs ++ [']']))
  | list {cs : List Char} (h : ElementsText cs) : ValueText ('[' :: (cs ++ [']']))
  | emptyObject {cs : List Char} (h : Blanks cs) : ValueText ('\x7b' :: (cs ++ ['\x7d']))
  | object {cs : List Char} (h : MembersText cs) : ValueText ('\x7b' :: (cs ++ ['\x7d']))

/-- The texts of one value or more, with commas between. -/
inductive ElementsText : List Char → Prop
  | last {v cs : List Char} (hv : ValueText v) (h : Padded v cs) : ElementsText cs
  | cons {v cs rest : List Char} (hv : ValueText v) (h : Padded v cs) (hrest : ElementsText rest) :
    ElementsText (cs ++ ',' :: rest)

/-- The texts of one member or more, with commas between. -/
inductive MembersText : List Char → Prop
  | last {key v cs : List Char} (hkey : StringText key) (hv : ValueText v)
    (h : MemberText key v cs) : MembersText cs
  | cons {key v cs rest : List Char} (hkey : StringText key) (hv : ValueText v)
    (h : MemberText key v cs) (hrest : MembersText rest) : MembersText (cs ++ ',' :: rest)

end

/-! ## Objects -/

/-- The texts of these members, each a name and the text of its value, in this order. -/
inductive MembersOf : List (String × List Char) → List Char → Prop
  | last {name : String} {key v cs : List Char} (hkey : Spells name.toList key)
    (h : MemberText key v cs) : MembersOf [(name, v)] cs
  | cons {name : String} {key v cs rest : List Char} {members : List (String × List Char)}
    (hkey : Spells name.toList key) (h : MemberText key v cs) (hrest : MembersOf members rest) :
    MembersOf ((name, v) :: members) (cs ++ ',' :: rest)

/-- The texts that hold an object with these members, and nothing else but blanks. -/
inductive ObjectText : List (String × List Char) → List Char → Prop
  | empty {inside text : List Char} (hinside : Blanks inside)
    (h : Padded ('\x7b' :: (inside ++ ['\x7d'])) text) : ObjectText [] text
  | members {members : List (String × List Char)} {inside text : List Char}
    (hinside : MembersOf members inside) (h : Padded ('\x7b' :: (inside ++ ['\x7d'])) text) :
    ObjectText members text

end ForeignTypes.Json
