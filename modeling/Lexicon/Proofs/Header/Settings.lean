import Mathlib.Data.List.TakeWhile
import Lexicon.Header.Basic

/-!
# Settings among other lines

A setting is written as a number sign, the name of a directive and its value in double quotes. What
stands between the name and the first quote, and behind the last one, does not matter, as long as it has
no quotes and does not go on with the name. A line of any other form says nothing, so the header is
made of the last setting of each directive, wherever it stands.

## Key results

- `Directive.ofName?_eq_some_iff`: names are found in any case
- `HeaderLine.span_name`: a name ends where its letters end
- `HeaderLine.quoted?_append`, `HeaderLine.quoted?_eq_none`: values end at the outermost quotes
- `HeaderLine.read_setting`, `HeaderLine.value?_read_noise`: settings are read, and nothing else is
- `Header.add_eq`, `Header.foldl_add`: what one line does to a header, and what all of them do
- `Header.ofLines_settings`: a header is made of the last settings
-/

namespace Lexicon

/-! ## Names -/

namespace Directive

/-- The name is that of the directive, in any ASCII case. -/
def SpelledBy (d : Directive) (name : Text) : Prop :=
  (name.map Char.toUpper, d) ∈ names

/-- No two directives have one name. -/
theorem ofName?_eq_some_iff {d : Directive} {name : Text} :
    ofName? name = some d ↔ d.SpelledBy name := by
  unfold ofName? SpelledBy
  generalize name.map Char.toUpper = key
  constructor
  · intro h
    obtain ⟨before, after, hnames, -⟩ := List.lookup_eq_some_iff.mp h
    rw [hnames]
    exact List.mem_append_right _ List.mem_cons_self
  · intro h
    have hall : ∀ entry ∈ names, names.lookup entry.1 = some entry.2 := by
      decide +kernel
    exact hall _ h

instance (d : Directive) (name : Text) : Decidable (SpelledBy d name) :=
  decidable_of_iff (ofName? name = some d) ofName?_eq_some_iff

theorem isNameChar_of_toUpper {c : Char} (h : isNameChar c.toUpper = true) :
    isNameChar c = true := by
  by_cases hlower : 'a'.val ≤ c.val ∧ c.val ≤ 'z'.val
  · have hsmall : c.isLower = true :=
      (Bool.and_eq_true _ _).mpr ⟨decide_eq_true hlower.1, decide_eq_true hlower.2⟩
    have halpha : c.isAlpha = true := (Bool.or_eq_true _ _).mpr (.inr hsmall)
    rw [isNameChar, halpha, Bool.true_or]
  · have hsame : c.toUpper = c := dif_neg hlower
    rwa [hsame] at h

/-- The name of a directive has no other characters than names may have. -/
theorem SpelledBy.isNameChar {d : Directive} {name : Text} (h : d.SpelledBy name) :
    ∀ c ∈ name, isNameChar c = true := by
  intro c hc
  have hall : ∀ entry ∈ names, entry.1.all Directive.isNameChar = true := by decide
  exact isNameChar_of_toUpper (List.all_eq_true.mp (hall _ h) _ (List.mem_map_of_mem hc))

end Directive

/-! ## Parts of a line -/

namespace HeaderLine

/-- A text that does not go on with a name. -/
def EndsName (rest : Text) : Prop :=
  rest.head?.any Directive.isNameChar = false

instance (rest : Text) : Decidable (EndsName rest) :=
  inferInstanceAs (Decidable (_ = false))

/-- A name is all its letters and no more. -/
theorem span_name {name rest : Text} (hname : ∀ c ∈ name, Directive.isNameChar c = true)
    (hrest : EndsName rest) :
    (name ++ rest).takeWhile Directive.isNameChar = name ∧
      (name ++ rest).dropWhile Directive.isNameChar = rest := by
  rw [List.takeWhile_append_of_pos hname, List.dropWhile_append_of_pos hname]
  cases rest with
  | nil => exact ⟨List.append_nil name, rfl⟩
  | cons c rest =>
    have hc : ¬ Directive.isNameChar c = true := Bool.eq_false_iff.mp hrest
    rw [List.takeWhile_cons_of_neg hc, List.dropWhile_cons_of_neg hc, List.append_nil]
    exact ⟨rfl, rfl⟩

theorem read_unmarked {line : Text} (h : line.head? ≠ some '#') : read line = other [] := by
  unfold read
  split
  · exact absurd rfl h
  · rfl

theorem read_unknown {name rest : Text} (hname : ∀ c ∈ name, Directive.isNameChar c = true)
    (hrest : EndsName rest) (h : Directive.ofName? name = none) :
    read ('#' :: (name ++ rest)) = other name := by
  unfold read
  simp only [(span_name hname hrest).1, h]

theorem read_known {d : Directive} {name rest : Text} (hname : d.SpelledBy name)
    (hrest : EndsName rest) :
    read ('#' :: (name ++ rest)) = (quoted? rest).elim (unquoted d) (setting d) := by
  have hspan := span_name hname.isNameChar hrest
  unfold read
  simp only [hspan.1, hspan.2, Directive.ofName?_eq_some_iff.mpr hname]
  cases quoted? rest with
  | none => rfl
  | some value => rfl

theorem afterQuote?_append {before : Text} (h : '"' ∉ before) (rest : Text) :
    afterQuote? (before ++ '"' :: rest) = some rest := by
  have hbefore : ∀ c ∈ before, (c != '"') = true := by
    intro c hc
    rw [bne_iff_ne]
    rintro rfl
    exact h hc
  rw [afterQuote?, List.dropWhile_append_of_pos hbefore, List.dropWhile_cons_of_neg (by decide)]

theorem quote_of_dropWhile {t rest : Text} {c : Char} (h : t.dropWhile (· != '"') = c :: rest) :
    c = '"' := by
  have hne : t.dropWhile (· != '"') ≠ [] := by
    rw [h]
    exact List.cons_ne_nil c rest
  have hhead := List.head_dropWhile_not (· != '"') hne
  simpa [h] using hhead

/-- Each search for a quote uses one up. -/
theorem count_of_afterQuote? {t rest : Text} (h : afterQuote? t = some rest) :
    rest.count '"' + 1 ≤ t.count '"' := by
  unfold afterQuote? at h
  split at h
  · cases h
  · rename_i c after hdrop
    cases h
    have hsub := (List.dropWhile_sublist (l := t) (· != '"')).count_le '"'
    rwa [hdrop, quote_of_dropWhile hdrop, List.count_cons_self] at hsub

/-- The value reaches from the first quote to the last one. -/
theorem quoted?_append {gap tail : Text} (hgap : '"' ∉ gap) (htail : '"' ∉ tail) (value : Text) :
    quoted? (gap ++ '"' :: (value ++ '"' :: tail)) = some value := by
  have hreverse : (value ++ '"' :: tail).reverse = tail.reverse ++ '"' :: value.reverse := by simp
  have hlast : '"' ∉ tail.reverse := fun hmem => htail (List.mem_reverse.mp hmem)
  rw [quoted?, afterQuote?_append hgap, Option.bind_eq_bind, Option.bind_some, hreverse,
    afterQuote?_append hlast]
  exact congrArg some (List.reverse_reverse value)

/-- With fewer than two quotes there is no value. -/
theorem quoted?_eq_none {rest : Text} (h : rest.count '"' < 2) : quoted? rest = none := by
  cases hquoted : quoted? rest with
  | none => rfl
  | some value =>
    obtain ⟨behind, hfirst, hquoted⟩ := Option.bind_eq_some_iff.mp hquoted
    obtain ⟨inner, hlast, -⟩ := Option.bind_eq_some_iff.mp hquoted
    have hone := count_of_afterQuote? hfirst
    have htwo := count_of_afterQuote? hlast
    rw [List.count_reverse] at htwo
    omega

end HeaderLine

/-! ## Lines of a header -/

namespace Header

/-- A setting as it is written. -/
structure Setting where
  directive : Directive
  /-- The name of the directive, in any case. -/
  name : Text
  /-- What stands between the name and the first quote. -/
  gap : Text
  value : Text
  /-- What stands behind the last quote. -/
  tail : Text
  spelled : directive.SpelledBy name
  endsName : HeaderLine.EndsName gap
  unquoted_gap : '"' ∉ gap
  unquoted_tail : '"' ∉ tail

namespace Setting

/-- The line that the setting stands in. -/
def line (s : Setting) : Text :=
  '#' :: (s.name ++ (s.gap ++ '"' :: (s.value ++ '"' :: s.tail)))

end Setting

/-- A line that sets nothing: one without a number sign, one with a name that means nothing, or a
directive without two quotes behind its name. -/
inductive Noise : Text → Prop where
  | unmarked {line : Text} (h : line.head? ≠ some '#') : Noise line
  | unknown {name rest : Text} (hname : ∀ c ∈ name, Directive.isNameChar c = true)
      (hrest : HeaderLine.EndsName rest) (h : ∀ d : Directive, ¬ d.SpelledBy name) :
      Noise ('#' :: (name ++ rest))
  | unquoted {name rest : Text} (d : Directive) (hname : d.SpelledBy name)
      (hrest : HeaderLine.EndsName rest) (h : rest.count '"' < 2) : Noise ('#' :: (name ++ rest))

/-- A line at the start of a source, with its form. -/
inductive SourceLine where
  | setting (s : Setting)
  | noise (line : Text) (h : Noise line)

namespace SourceLine

def text : SourceLine → Text
  | setting s => s.line
  | noise line _ => line

/-- The value that a line gives to a directive. -/
def value? (d : Directive) : SourceLine → Option Text
  | setting s => if s.directive = d then some s.value else none
  | noise _ _ => none

end SourceLine

/-- The value in the last setting of a directive. -/
def lastValue? (d : Directive) (lines : List SourceLine) : Option Text :=
  (lines.filterMap (SourceLine.value? d)).getLast?

end Header

/-! ## Reading lines -/

namespace HeaderLine

/-- The value that what has been read gives to a directive. -/
def value? (d : Directive) : HeaderLine → Option Text
  | setting directive value => if directive = d then some value else none
  | _ => none

/-- A setting is read as it was written. -/
theorem read_setting (s : Header.Setting) : read s.line = setting s.directive s.value := by
  have hrest : EndsName (s.gap ++ '"' :: (s.value ++ '"' :: s.tail)) := by
    have hgap := s.endsName
    cases h : s.gap with
    | nil => rfl
    | cons c gap =>
      rw [h] at hgap
      exact hgap
  rw [Header.Setting.line, read_known s.spelled hrest,
    quoted?_append s.unquoted_gap s.unquoted_tail, Option.elim_some]

/-- Nothing else sets anything. -/
theorem value?_read_noise {line : Text} (h : Header.Noise line) (d : Directive) :
    (read line).value? d = none := by
  cases h with
  | unmarked h =>
    rw [read_unmarked h]
    rfl
  | unknown hname hrest h =>
    have hnone := Option.eq_none_iff_forall_ne_some.mpr fun d hd =>
      h d (Directive.ofName?_eq_some_iff.mp hd)
    rw [read_unknown hname hrest hnone]
    rfl
  | unquoted d' hname hrest h =>
    rw [read_known hname hrest, quoted?_eq_none h]
    rfl

/-- What is read of a line gives each directive the value that the line gives it. -/
theorem value?_read (line : Header.SourceLine) (d : Directive) :
    (read line.text).value? d = line.value? d := by
  cases line with
  | setting s =>
    rw [Header.SourceLine.text, read_setting]
    rfl
  | noise line h => exact value?_read_noise h d

end HeaderLine

/-! ## The last setting -/

theorem getLast?_filterMap_cons {α β : Type} (f : α → Option β) (a : α) (l : List α) :
    ((a :: l).filterMap f).getLast? = (l.filterMap f).getLast?.or (f a) := by
  rw [List.filterMap_cons]
  cases f a with
  | none => rw [Option.or_none]
  | some b =>
    rw [List.getLast?_cons]
    cases (l.filterMap f).getLast? with
    | none => rfl
    | some c => rfl

namespace Header

/-- What a line gives replaces what was there before. -/
theorem add_eq (h : Header) (line : HeaderLine) :
    h.add line =
      { name := (line.value? .name).getD h.name
        indexLanguage := (line.value? .indexLanguage).getD h.indexLanguage
        contentsLanguage := (line.value? .contentsLanguage).getD h.contentsLanguage
        soundDictionary := (line.value? .soundDictionary).or h.soundDictionary } := by
  rcases line with ⟨_ | _, value⟩ | name | directive <;> rfl

/-- Of several lines with a value the last one counts. -/
theorem foldl_add (h : Header) (lines : List HeaderLine) :
    lines.foldl add h =
      { name := (lines.filterMap (HeaderLine.value? .name)).getLast?.getD h.name
        indexLanguage :=
          (lines.filterMap (HeaderLine.value? .indexLanguage)).getLast?.getD h.indexLanguage
        contentsLanguage :=
          (lines.filterMap (HeaderLine.value? .contentsLanguage)).getLast?.getD h.contentsLanguage
        soundDictionary :=
          (lines.filterMap (HeaderLine.value? .soundDictionary)).getLast?.or h.soundDictionary } := by
  induction lines generalizing h with
  | nil => rfl
  | cons line lines ih =>
    rw [List.foldl_cons, ih, add_eq]
    simp only [getLast?_filterMap_cons, Option.getD_or, Option.or_assoc]

theorem codePage?_eq (line : HeaderLine) : codePage? line = line.value? .sourceCodePage := by
  rcases line with ⟨_ | _, value⟩ | name | directive <;> rfl

theorem filterMap_read (d : Directive) (lines : List SourceLine) :
    ((lines.map SourceLine.text).map HeaderLine.read).filterMap (HeaderLine.value? d) =
      lines.filterMap (SourceLine.value? d) := by
  rw [List.filterMap_map, List.filterMap_map]
  exact congrArg (lines.filterMap ·) (funext fun line => HeaderLine.value?_read line d)

/-- A header is made of the last setting of each directive. All other lines, and where they stand, make no
difference. -/
theorem ofLines_settings (lines : List SourceLine) :
    ofLines (lines.map SourceLine.text) =
      { name := (lastValue? .name lines).getD []
        indexLanguage := (lastValue? .indexLanguage lines).getD []
        contentsLanguage := (lastValue? .contentsLanguage lines).getD []
        soundDictionary := lastValue? .soundDictionary lines } ∧
      codePageName? (lines.map SourceLine.text) = lastValue? .sourceCodePage lines := by
  constructor
  · rw [ofLines, foldl_add]
    simp only [filterMap_read]
    rw [empty, Option.or_none]
    rfl
  · rw [codePageName?, funext codePage?_eq, filterMap_read]
    rfl

/-- A setting whose value has quotes of its own. -/
private def quotedName : Setting where
  directive := .name
  name := "Name".toList
  gap := "\t=".toList
  value := "a \"b\"".toList
  tail := " ;".toList
  spelled := by decide
  endsName := by decide
  unquoted_gap := by decide
  unquoted_tail := by decide

theorem ofLines_settings_quotes :
    let lines : List SourceLine :=
      [.setting { quotedName with value := "old".toList },
        .setting quotedName,
        .noise "NAME \"unmarked\"".toList (.unmarked (by decide)),
        .noise "#NAMES \"unknown\"".toList
          (@Noise.unknown "NAMES".toList " \"unknown\"".toList (List.all_eq_true.mp (by decide))
            (by decide) (fun d => by cases d <;> decide)),
        .noise "#NAME \"open".toList
          (@Noise.unquoted "NAME".toList " \"open".toList .name (by decide) (by decide) (by decide)),
        .setting { quotedName with
          directive := .sourceCodePage, name := "source_Code_page".toList, spelled := by decide }]
    ofLines (lines.map SourceLine.text) = ⟨"a \"b\"".toList, [], [], none⟩ ∧
      codePageName? (lines.map SourceLine.text) = some "a \"b\"".toList := by
  intro lines
  obtain ⟨hheader, hpage⟩ := ofLines_settings lines
  exact ⟨hheader, hpage⟩

end Header

end Lexicon
