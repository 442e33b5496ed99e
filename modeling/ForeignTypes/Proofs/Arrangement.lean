import ForeignTypes.Options.Text
import ForeignTypes.Proofs.Depth
import ForeignTypes.Proofs.Operations
import ForeignTypes.Proofs.Scanning

/-!
# Options in any arrangement

A JSON text of options may give them in any order, with any blanks and any way to write a string,
leave out those that have their defaults, and hold members of other names.  Whatever the text, the
options it was made from are read back: what is known after some of the members is what the options
have for the names that came up so far, and nothing for the others.  And options that were read hold
together, so that their family is one part of a module path.

* `Options.Writes`, `Options.GivenBy` — the texts of one value, and the members that give options.
* `Options.WrittenAs` — the texts of options.
* `PartialOptions.of` — what is known when some names came up.
* `members?_text` — the members of an object are read as that, by induction on them.
* `Session.ReadiesFamily` — a context that is made with options readies their family.
* **`Options.read_in_any_arrangement`** — options are read back from all their texts, and what is
  read makes a context whose family becomes ready.
-/

namespace ForeignTypes

open Json

variable {cs v rest : List Char}

/-! ## Names -/

namespace OptionKey

lemma ofName?_name (key : OptionKey) : ofName? key.name = some key := by
  cases key
  all_goals decide

lemma name_inj {key key' : OptionKey} : key.name = key'.name ↔ key = key' := by
  refine ⟨fun h => ?_, congrArg name⟩
  have hsame : some key = some key' := by rw [← ofName?_name key, h, ofName?_name]
  exact Option.some.inj hsame

lemma ofName?_eq_none {s : String} (h : ∀ key : OptionKey, s ≠ key.name) : ofName? s = none := by
  simp only [ofName?, List.find?_eq_none, decide_eq_true_eq]
  exact fun key _ heq => h key heq.symm

end OptionKey

lemma Platform.ofName?_name (p : Platform) : ofName? p.name = some p := by
  cases p
  all_goals decide

lemma ReversePolicy.ofName?_name (p : ReversePolicy) : ofName? p.name = some p := by
  cases p
  all_goals decide

/-! ## The texts of options -/

/-- The texts of a choice: its name, alone or as the one key of an object whose value is `null`. -/
inductive ChoiceText (name : String) : List Char → Prop
  | alone {cs : List Char} (h : Spells name.toList cs) : ChoiceText name (quote cs)
  | keyed {cs member : List Char} (h : Spells name.toList cs)
    (hmember : MemberText cs ['n', 'u', 'l', 'l'] member) :
    ChoiceText name ('\x7b' :: (member ++ ['\x7d']))

/-- The texts of the value that these options have for a key. -/
def Options.Writes (o : Options) : OptionKey → List Char → Prop
  | .platform, v => ChoiceText o.platform.name v
  | .reversePolicy, v => ChoiceText o.reversePolicy.name v
  | .pruneThreshold, v => v = Nat.toDigits 10 o.pruneThreshold
  | .coreFamily, v => ∃ cs, Spells o.coreFamily.toList cs ∧ v = quote cs

/-- Two options have the same value for a key. -/
def Options.AgreeOn (o o' : Options) : OptionKey → Prop
  | .platform => o.platform = o'.platform
  | .reversePolicy => o.reversePolicy = o'.reversePolicy
  | .pruneThreshold => o.pruneThreshold = o'.pruneThreshold
  | .coreFamily => o.coreFamily = o'.coreFamily

/-- The members of an object give these options: no option is given twice, each that is given has a
text of its value, and members of other names have any value. -/
inductive Options.GivenBy (o : Options) : List (String × List Char) → Prop
  | nil : GivenBy o []
  | option {key : OptionKey} {v : List Char} {members : List (String × List Char)}
    (hv : o.Writes key v) (honce : key.name ∉ members.map Prod.fst) (h : GivenBy o members) :
    GivenBy o ((key.name, v) :: members)
  | other {name : String} {v : List Char} {members : List (String × List Char)}
    (hname : ∀ key : OptionKey, name ≠ key.name) (hv : ValueText v) (h : GivenBy o members) :
    GivenBy o ((name, v) :: members)

/-- The text is an object whose members give these options; an option may be left out if it has its
default. -/
def Options.WrittenAs (o : Options) (text : String) : Prop :=
  ∃ members, o.GivenBy members ∧ ObjectText members text.toList ∧
    ∀ key : OptionKey, key.name ∉ members.map Prod.fst → o.AgreeOn {} key

/-! ## One value -/

lemma string?_blanks (h : Blanks cs) (rest : List Char) : string? (cs ++ rest) = string? rest := by
  rw [string?, skipBlank_blanks h, string?]

lemma natural?_blanks (h : Blanks cs) (rest : List Char) :
    natural? (cs ++ rest) = natural? rest := by
  rw [natural?, skipBlank_blanks h, natural?]

section

variable {α : Type} {ofName? : String → Option α} {a : α} {name : String}

lemma choice?_blanks (h : Blanks cs) (rest : List Char) :
    choice? ofName? (cs ++ rest) = choice? ofName? rest := by
  rw [choice?, skipBlank_blanks h, choice?]

lemma choice?_text (hname : ofName? name = some a) (h : ChoiceText name v) (rest : List Char) :
    choice? ofName? (v ++ rest) = some (a, rest) := by
  cases h with
  | alone h =>
      have hstring := string?_quote h rest
      rw [quote_append] at hstring ⊢
      simp [choice?, skipBlank_cons (c := '"') rfl, hstring, hname]
  | keyed h hmember =>
      obtain @⟨left, right, hleft, hright⟩ := hmember
      obtain @⟨before, after, hbefore, hafter⟩ := hleft
      obtain @⟨before', after', hbefore', hafter'⟩ := hright
      simp only [List.cons_append, List.append_assoc, List.nil_append]
      simp only [choice?, skipBlank_cons (c := '\x7b') rfl, string?_blanks hbefore, string?_quote h,
        skipBlank_blanks hafter, skipBlank_cons (c := ':') rfl, hname, skipBlank_blanks hbefore',
        skipBlank_cons (c := 'n') rfl, skipWord?, if_true, skipBlank_blanks hafter',
        skipBlank_cons (c := '\x7d') rfl, bind, Option.bind_some]

end

/-- What these options have for some of the keys, and nothing for the others. -/
def PartialOptions.of (o : Options) (known : List OptionKey) : PartialOptions where
  platform := if .platform ∈ known then some o.platform else none
  reversePolicy := if .reversePolicy ∈ known then some o.reversePolicy else none
  pruneThreshold := if .pruneThreshold ∈ known then some o.pruneThreshold else none
  coreFamily := if .coreFamily ∈ known then some o.coreFamily else none

variable {o : Options} {known : List OptionKey} {key : OptionKey}

lemma PartialOptions.gives_of : (of o known).gives key = true ↔ key ∈ known := by
  cases key
  all_goals simp [of, gives]

lemma PartialOptions.complete_of (h : ∀ key, key ∉ known → o.AgreeOn {} key) :
    (of o known).complete = o := by
  obtain ⟨platform, policy, threshold, family⟩ := o
  simp only [of, complete, Options.mk.injEq]
  refine ⟨?_, ?_, ?_, ?_⟩
  all_goals
    split
    · rfl
    · next hkey => exact (h _ hkey).symm

lemma OptionKey.read?_blanks {p : PartialOptions} (h : Blanks cs) (rest : List Char) :
    key.read? p (cs ++ rest) = key.read? p rest := by
  cases key
  · simp only [read?, choice?_blanks h]
  · simp only [read?, choice?_blanks h]
  · simp only [read?, natural?_blanks h]
  · simp only [read?, string?_blanks h]

/-- The text of a value of these options is read as that. -/
lemma OptionKey.read?_text (ho : o.pruneThreshold < UInt64.size) (h : o.Writes key v)
    (hrest : Ends rest) :
    key.read? (.of o known) (v ++ rest) = some (.of o (key :: known), rest) := by
  cases key with
  | platform =>
      rw [read?, choice?_text o.platform.ofName?_name h]
      simp [PartialOptions.of]
  | reversePolicy =>
      rw [read?, choice?_text o.reversePolicy.ofName?_name h]
      simp [PartialOptions.of]
  | pruneThreshold =>
      obtain rfl := h
      rw [read?, natural?_digits ho hrest]
      simp [PartialOptions.of]
  | coreFamily =>
      obtain ⟨cs, hcs, rfl⟩ := h
      rw [read?, string?_quote hcs]
      simp [PartialOptions.of]

/-! ## Members -/

section

variable {p p' : PartialOptions} {name : String}

lemma member?_blanks (h : Blanks cs) (rest : List Char) :
    member? p name (cs ++ rest) = member? p name rest := by
  rw [member?, member?]
  cases OptionKey.ofName? name with
  | some key => simp only [OptionKey.read?_blanks h]
  | none => simp only [skipValue?, skipFrom?_blanks h]

/-- After a member the next one is read, or the object is at its end. -/
lemma members?_member {key : List Char} (hkey : Spells name.toList key) (h : MemberText key v cs)
    (hread : ∀ rest, Ends rest → member? p name (v ++ rest) = some (p', rest)) (count : Nat)
    (rest : List Char) :
    members? (count + 1) p (cs ++ ',' :: rest) = members? count p' rest ∧
      members? (count + 1) p (cs ++ '\x7d' :: rest) = some (p', rest) := by
  obtain @⟨left, right, hleft, hright⟩ := h
  obtain @⟨before, after, hbefore, hafter⟩ := hleft
  obtain @⟨before', after', hbefore', hafter'⟩ := hright
  have hcomma : Ends (after' ++ ',' :: rest) := (ends_cons (by decide) rest).append hafter'
  have hbrace : Ends (after' ++ '\x7d' :: rest) := (ends_cons (by decide) rest).append hafter'
  simp only [List.append_assoc, List.cons_append]
  constructor
  all_goals
    simp only [members?, string?_blanks hbefore, string?_quote hkey, skipBlank_blanks hafter,
      skipBlank_cons (c := ':') rfl, member?_blanks hbefore', hread _ hcomma, hread _ hbrace,
      skipBlank_blanks hafter', skipBlank_cons (c := ',') rfl, skipBlank_cons (c := '\x7d') rfl,
      bind, Option.bind_some]

end

section

variable {name : String} {members : List (String × List Char)}

lemma Options.GivenBy.tail (h : o.GivenBy ((name, v) :: members)) : o.GivenBy members := by
  cases h with
  | option _ _ h => exact h
  | other _ _ h => exact h

/-- A member is read as what these options have for its name, or skipped. -/
lemma member?_text (hgiven : o.GivenBy ((name, v) :: members))
    (ho : o.pruneThreshold < UInt64.size)
    (hknown : ∀ key ∈ known, key.name ∉ name :: members.map Prod.fst) :
    ∃ known', (∀ rest, Ends rest →
        member? (.of o known) name (v ++ rest) = some (.of o known', rest)) ∧
      (∀ key ∈ known', key.name ∉ members.map Prod.fst) ∧
      ∀ key, key ∈ known' ↔ key ∈ known ∨ key.name = name := by
  cases hgiven with
  | @option key _ _ hv honce _ =>
      have hgives : (PartialOptions.of o known).gives key = false := by
        rw [← Bool.not_eq_true, PartialOptions.gives_of]
        exact fun hkey => hknown key hkey List.mem_cons_self
      refine ⟨key :: known, fun rest hrest => ?_, ?_, fun key' => ?_⟩
      · simp only [member?, key.ofName?_name, hgives]
        exact key.read?_text ho hv hrest
      · rintro key' hkey hmem
        rcases List.mem_cons.mp hkey with rfl | hkey
        · exact honce hmem
        · exact hknown key' hkey (List.mem_cons_of_mem _ hmem)
      · rw [List.mem_cons, OptionKey.name_inj, or_comm]
  | other hname hv _ =>
      refine ⟨known, fun rest hrest => ?_, fun key hkey hmem => ?_, fun key => ?_⟩
      · simp only [member?, OptionKey.ofName?_eq_none hname, skipValue?_text hv hrest,
          Option.map_some]
      · exact hknown key hkey (List.mem_cons_of_mem _ hmem)
      · exact (or_iff_left fun heq => hname key heq.symm).symm

/-- The members of an object are read as what these options have for the names that come up. -/
lemma members?_text {inside : List Char} {count : Nat} (h : MembersOf members inside)
    (hgiven : o.GivenBy members) (ho : o.pruneThreshold < UInt64.size)
    (hknown : ∀ key ∈ known, key.name ∉ members.map Prod.fst) (hcount : members.length ≤ count)
    (rest : List Char) :
    ∃ known', members? count (.of o known) (inside ++ '\x7d' :: rest) = some (.of o known', rest) ∧
      ∀ key, key ∈ known' ↔ key ∈ known ∨ key.name ∈ members.map Prod.fst := by
  induction h generalizing known count with
  | last hkey h =>
      obtain ⟨n, rfl⟩ := Nat.exists_eq_add_of_le' hcount
      obtain ⟨known', hread, -, hiff⟩ := member?_text hgiven ho hknown
      refine ⟨known', ?_, fun key => by simp [hiff]⟩
      exact (members?_member hkey h hread n rest).2
  | cons hkey h _ ih =>
      obtain ⟨n, rfl⟩ := Nat.exists_eq_add_of_le' hcount
      obtain ⟨known₁, hread, hfresh, hiff₁⟩ := member?_text hgiven ho hknown
      obtain ⟨known', heq, hiff⟩ := ih hgiven.tail hfresh (Nat.le_add_left _ n)
      refine ⟨known', ?_, fun key => ?_⟩
      · rw [List.append_assoc, List.cons_append]
        exact (members?_member hkey h hread _ _).1.trans heq
      · rw [hiff, hiff₁, List.map_cons, List.mem_cons, or_assoc]

end

/-! ## Whole texts -/

lemma PartialOptions.read?_object {members : List (String × List Char)} {text : List Char}
    (ho : o.pruneThreshold < UInt64.size) (hgiven : o.GivenBy members)
    (h : ObjectText members text) :
    ∃ known rest, read? text = some (.of o known, rest) ∧ Blanks rest ∧
      ∀ key, key ∈ known ↔ key.name ∈ members.map Prod.fst := by
  cases h with
  | empty hinside h =>
      obtain @⟨before, after, hbefore, hafter⟩ := h
      refine ⟨[], after, ?_, hafter, by simp⟩
      simp only [read?, skipBlank_blanks hbefore, List.cons_append, List.append_assoc,
        List.nil_append, skipBlank_cons (c := '\x7b') rfl, skipBlank_blanks hinside,
        skipBlank_cons (c := '\x7d') rfl]
      rfl
  | members hinside h =>
      obtain @⟨before, after, hbefore, hafter⟩ := h
      -- The bound on the members is the length of the text without the blanks before the first.
      obtain ⟨tail, hmembers, heq⟩ := hinside.head
      have hfresh : ∀ key ∈ ([] : List OptionKey), key.name ∉ members.map Prod.fst := by simp
      have hcount : members.length ≤ ('"' :: (tail ++ '\x7d' :: after)).length := by
        have := hmembers.length_le
        simp only [List.length_cons, List.length_append] at this ⊢
        omega
      obtain ⟨known, hread, hiff⟩ := members?_text hmembers hgiven ho hfresh hcount after
      refine ⟨known, after, ?_, hafter, by simpa using hiff⟩
      simp only [read?, skipBlank_blanks hbefore, List.cons_append, List.append_assoc,
        List.nil_append, skipBlank_cons (c := '\x7b') rfl, heq]
      exact hread

lemma Options.ofJson?_of_writtenAs {text : String} (ho : o.pruneThreshold < UInt64.size)
    (h : o.WrittenAs text) : ofJson? text = some o := by
  obtain ⟨members, hgiven, htext, hdefault⟩ := h
  obtain ⟨known, rest, hread, hrest, hiff⟩ := PartialOptions.read?_object ho hgiven htext
  have hend : skipBlank rest = [] := by simpa [skipBlank] using skipBlank_blanks hrest []
  have hcomplete : (PartialOptions.of o known).complete = o :=
    PartialOptions.complete_of fun key hkey => hdefault key (mt (hiff key).mpr hkey)
  simp only [ofJson?, hread, hend, if_true, hcomplete]

/-! ## Options that were read -/

lemma Options.validate_eq_ok_iff :
    o.validate = .ok () ↔ o.pruneThreshold ≠ 0 ∧ o.coreFamily ≠ "" ∧ '.' ∉ o.coreFamily.toList := by
  rw [validate]
  split
  · simp_all
  · split
    · next h => simpa using fun _ hne => h.resolve_left hne
    · simp_all

lemma Options.validate_of_ofText {text : String} (h : ofText text = .ok o) :
    o.validate = .ok () := by
  rw [ofText] at h
  split at h
  · simp at h
  · split at h
    · simp at h
    · next hvalid =>
      simp only [Except.ok.injEq] at h
      exact h ▸ hvalid

/-- The module paths of a family that is one part of a path. -/
lemma familyOf_of_dotless {family path : String} (hdot : '.' ∉ family.toList)
    (hpath : path = family ∨ ∃ rest, path = family ++ "." ++ rest) : familyOf path = family := by
  have hlist : ∃ rest, path.toList = family.toList ++ rest ∧ rest.takeWhile (· ≠ '.') = [] := by
    rcases hpath with rfl | ⟨rest, rfl⟩
    · exact ⟨[], by simp, rfl⟩
    · exact ⟨'.' :: rest.toList, by simp, by simp⟩
  obtain ⟨rest, hlist, hrest⟩ := hlist
  rw [familyOf, hlist, List.takeWhile_append_of_pos, hrest, List.append_nil, String.ofList_toList]
  exact fun c hc => decide_eq_true fun heq => hdot (heq ▸ hc)

/-- A family whose provider is the built-in one becomes ready when it is asked for. -/
lemma Workspace.ensure_builtin {w : Workspace} {path : String}
    (hready : w.context.support.isReady (familyOf path) = false)
    (hp : w.context.support.get? (familyOf path) = some .builtin) :
    ∃ w', w.ensure path = (w', .ok ()) ∧ w'.context.support.isReady (familyOf path) = true := by
  have hbegin := SupportRegistry.begin_eq_some.mpr ⟨hready, hp, rfl⟩
  have hknown := mem_families.mpr (.inr (begin_spec hbegin).2)
  obtain ⟨n, hn⟩ := Nat.exists_eq_succ_of_ne_zero (List.length_pos_of_mem hknown).ne'
  refine ⟨(w.begun (w.context.support.mark (familyOf path)) (familyOf path)).settle
    (familyOf path) (.ok ()), ?_, ?_⟩
  · rw [ensure, hn, ensureWithin_succ hbegin]
    rfl
  · exact isReady_settle.mpr ⟨fun _ => rfl, (isReady_begun hbegin).mpr (.inl rfl)⟩

/-- A context that is made with these options makes their family ready when it is asked for this
module path. -/
def Session.ReadiesFamily (s : Session) (name : String) (o : Options) (path : String) : Prop :=
  ∃ made c asked c', s.perform (.makeContext name o true) = (.ok (), made) ∧
    made.contexts.get? name = some c ∧ c.support.isReady o.coreFamily = false ∧
    made.perform (.ensure name path) = (.ok (), asked) ∧
    asked.contexts.get? name = some c' ∧ c'.support.isReady o.coreFamily = true

lemma Session.readiesFamily_of_validate (s : Session) (name : String) {path : String}
    (hvalid : o.validate = .ok ()) (hpath : familyOf path = o.coreFamily) :
    s.ReadiesFamily name o path := by
  obtain ⟨made, hmade, hc⟩ : ∃ made, s.perform (.makeContext name o true) = (.ok (), made) ∧
      made.contexts.get? name = some (s.process.newContext o).2 :=
    ⟨_, s.perform_makeContext_of_validate name hvalid, (Table.get?_put ..).trans (if_pos rfl)⟩
  have hp : (s.process.newContext o).2.support.get? (familyOf path) = some .builtin := by
    rw [hpath]
    exact (Table.get?_put ..).trans (if_pos rfl)
  obtain ⟨w, hasked, hready⟩ := Workspace.ensure_builtin (w := ⟨made.process, _⟩) rfl hp
  refine ⟨made, _, made.withWork name w, w.context, hmade, hc, rfl, ?_, ?_, hpath ▸ hready⟩
  · rw [perform_ensure hc, hasked]
    rfl
  · exact (Table.get?_put ..).trans (if_pos rfl)

/-- **Options in any arrangement**: from a text of options come those options, or the fault of the
check if they do not hold together.  And from any text come only options that hold together: their
family is one part of a path, and a context that is made with them readies it for every module path
that begins with it. -/
theorem Options.read_in_any_arrangement :
    (∀ (o : Options) (text : String), o.pruneThreshold < UInt64.size → o.WrittenAs text →
      (o.validate = .ok () → ofText text = .ok o) ∧
      ∀ f, o.validate = .error f → ofText text = .error f) ∧
    ∀ (o : Options) (text : String), ofText text = .ok o →
      o.validate = .ok () ∧ o.coreFamily ≠ "" ∧ familyOf o.coreFamily = o.coreFamily ∧
      ∀ (s : Session) (name path : String),
        path = o.coreFamily ∨ (∃ rest, path = o.coreFamily ++ "." ++ rest) →
          s.ReadiesFamily name o path := by
  refine ⟨fun o text ho htext => ?_, fun o text h => ?_⟩
  · have hread := ofJson?_of_writtenAs ho htext
    refine ⟨fun hvalid => ?_, fun f hvalid => ?_⟩
    · simp only [ofText, hread, hvalid]
    · simp only [ofText, hread, hvalid]
  · have hvalid := validate_of_ofText h
    obtain ⟨-, hne, hdot⟩ := validate_eq_ok_iff.mp hvalid
    refine ⟨hvalid, hne, familyOf_of_dotless hdot (.inl rfl), fun s name path hpath => ?_⟩
    exact s.readiesFamily_of_validate name hvalid (familyOf_of_dotless hdot hpath)

/-- Options with a family of their own. -/
def Options.graphics : Options := { platform := .windows32, coreFamily := "gfx" }

/-- A text of them: the options in another order, after a member of another name, and a letter of
the family written by its number. -/
def Options.graphicsText : String :=
  "\x7b\"x\":[\x7b\x7d], \"core_family\" :\"gf\\u0078\",\"platform\":\"windows32\"\x7d"

def Options.graphicsMembers : List (String × List Char) :=
  [("x", ['[', '\x7b', '\x7d', ']']),
    ("core_family", quote ['g', 'f', '\\', 'u', '0', '0', '7', '8']),
    ("platform", quote "windows32".toList)]

lemma Options.givenBy_graphicsMembers : graphics.GivenBy graphicsMembers := by
  have hx : Piece ['\\', 'u', '0', '0', '7', '8'] 'x'.toNat :=
    .unit (i := 0) (j := 0) (k := 7) (l := 8) (.inl (by decide)) (.inl (by decide))
      (.inl (by decide)) (.inl (by decide))
  have hfamily : graphics.Writes .coreFamily (quote ['g', 'f', '\\', 'u', '0', '0', '7', '8']) :=
    ⟨_, .char (.plain (by decide) (by decide) (by decide))
      (.char (.plain (by decide) (by decide) (by decide)) (.char hx .nil)), rfl⟩
  have hplatform : graphics.Writes .platform (quote "windows32".toList) :=
    .alone (.of_plain (by decide))
  have hinner : ElementsText ['\x7b', '\x7d'] :=
    .last (@ValueText.emptyObject [] (by simp [Blanks])) (.tight _)
  refine .other ?_ (.list hinner) (.option hfamily ?_ (.option hplatform ?_ .nil))
  · intro key
    cases key
    all_goals decide
  · decide
  · decide

lemma Options.writtenAs_graphicsText : graphics.WrittenAs graphicsText := by
  have hblank : Blanks [' '] := by simp [Blanks, blankChars]
  refine ⟨graphicsMembers, givenBy_graphicsMembers, ?_, ?_⟩
  · have htext : ObjectText graphicsMembers _ := .members
      (.cons (.of_plain (by decide)) (.mk (.tight _) (.tight _))
        (.cons (.of_plain (by decide)) (.mk (.mk hblank hblank) (.tight _))
          (.last (.of_plain (by decide)) (.mk (.tight _) (.tight _))))) (.tight _)
    exact (congrArg (ObjectText graphicsMembers) (by decide)).mp htext
  · intro key hkey
    cases key
    · exact absurd hkey (by decide)
    · rfl
    · rfl
    · exact absurd hkey (by decide)

/-- A text of options that do not hold together. -/
def Options.zeroText : String := "\x7b\"pending_prune_threshold\":0\x7d"

lemma Options.writtenAs_zeroText : Options.WrittenAs { pruneThreshold := 0 } zeroText := by
  refine ⟨[(OptionKey.pruneThreshold.name, ['0'])], .option rfl (by decide) .nil, ?_, ?_⟩
  · have htext : ObjectText [(OptionKey.pruneThreshold.name, ['0'])] _ := .members
      (.last (.of_plain (by decide)) (.mk (.tight _) (.tight _))) (.tight _)
    exact (congrArg (ObjectText _) (by decide)).mp htext
  · intro key hkey
    cases key
    · rfl
    · rfl
    · exact absurd hkey (by decide)
    · rfl

/-- The options for graphics are read back and make a context whose family becomes ready; those
without a threshold are refused. -/
theorem Options.read_in_any_arrangement_graphics :
    graphics.WrittenAs graphicsText ∧ ofText graphicsText = .ok graphics ∧
      Session.start.ReadiesFamily "gpu" graphics "gfx.shaders" ∧
      ofText zeroText = .error .zeroThreshold := by
  have hread := (read_in_any_arrangement.1 graphics graphicsText (by decide)
    writtenAs_graphicsText).1 rfl
  have hrefused := (read_in_any_arrangement.1 { pruneThreshold := 0 } zeroText (by decide)
    writtenAs_zeroText).2 .zeroThreshold rfl
  have hready := (read_in_any_arrangement.2 graphics graphicsText hread).2.2.2 .start "gpu"
    "gfx.shaders" (.inr ⟨"shaders", by decide⟩)
  exact ⟨writtenAs_graphicsText, hread, hready, hrefused⟩

end ForeignTypes
