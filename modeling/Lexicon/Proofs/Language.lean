import Lexicon.Language.Id

/-!
# Names of languages

However a header spells the name of a language, it is found: the case of letters of ASCII, blanks and
punctuation make no difference, and neither does a suffix behind a name or code of the table. No entry
of the table is in the way of another one, and no name of the table looks like one with a suffix.

## Key results

- `foldName_of_respelled`: what the spelling of a name does not change
- `find?_eq_some_iff`: each name and code of the table belongs to one language
- `stripSuffix?_eq_some_iff`, `findVariant?_append`: the stem of a name with a suffix
- `idOfName_stable`: numbers of names, however they are spelled
-/

namespace Lexicon

/-! ## Letter case -/

namespace Unicode

private theorem mem_range_of_le {low high n : Nat} (h : low ≤ n ∧ n ≤ high) :
    n ∈ List.range' low (high + 1 - low) := by
  rw [List.mem_range'_1]
  omega

/-- Whether a character is a small letter of ASCII. -/
def isSmall (c : Char) : Bool :=
  'a'.toNat ≤ c.toNat && c.toNat ≤ 'z'.toNat

private theorem mem_range_of_isSmall {c : Char} (h : isSmall c = true) :
    c.toNat ∈ List.range' 'a'.toNat 26 := by
  rw [isSmall, Bool.and_eq_true, decide_eq_true_iff, decide_eq_true_iff] at h
  exact mem_range_of_le h

theorem isAlphanumeric_of_isSmall {c : Char} (h : isSmall c = true) : isAlphanumeric c = true := by
  have hall : ∀ n ∈ List.range' 'a'.toNat 26, isAlphanumeric (Char.ofNat n) = true := by
    decide +kernel
  have hc := hall c.toNat (mem_range_of_isSmall h)
  rwa [Char.ofNat_toNat] at hc

theorem toLower_of_isSmall {c : Char} (h : isSmall c = true) : toLower c = [c] := by
  have hall : ∀ n ∈ List.range' 'a'.toNat 26, toLower (Char.ofNat n) = [Char.ofNat n] := by
    decide +kernel
  have hc := hall c.toNat (mem_range_of_isSmall h)
  rwa [Char.ofNat_toNat] at hc

/-- A character of which the small letter of ASCII is another one is a capital. -/
private theorem asciiLower_cases (c : Char) :
    c.toLower = c ∨ isSmall c.toLower = true ∧ isAlphanumeric c = true ∧ toLower c = [c.toLower] := by
  by_cases hcapital : 'A'.val ≤ c.val ∧ c.val ≤ 'Z'.val
  · have hall : ∀ n ∈ List.range' 'A'.toNat 26, isSmall (Char.ofNat n).toLower = true ∧
        isAlphanumeric (Char.ofNat n) = true ∧
        toLower (Char.ofNat n) = [(Char.ofNat n).toLower] := by
      decide +kernel
    have hc := hall c.toNat (mem_range_of_le hcapital)
    rw [Char.ofNat_toNat] at hc
    exact .inr hc
  · exact .inl (dif_neg hcapital)

/-- The two forms of a letter of ASCII are both alphanumeric. -/
theorem isAlphanumeric_asciiLower (c : Char) : isAlphanumeric c.toLower = isAlphanumeric c := by
  rcases asciiLower_cases c with hsame | ⟨hsmall, halphanumeric, -⟩
  · rw [hsame]
  · rw [halphanumeric, isAlphanumeric_of_isSmall hsmall]

/-- The two forms of a letter of ASCII have one small form. -/
theorem toLower_asciiLower (c : Char) : toLower c.toLower = toLower c := by
  rcases asciiLower_cases c with hsame | ⟨hsmall, -, hlower⟩
  · rw [hsame]
  · rw [hlower, toLower_of_isSmall hsmall]

end Unicode

namespace Language

/-! ## Spellings -/

/-- The second text spells the first one: the case of letters of ASCII may be another, and there may
be more characters that are neither letters nor numbers. -/
inductive Respelled : Text → Text → Prop
  | nil : Respelled [] []
  | letter {c d : Char} {t u : Text} :
    d.toLower = c.toLower → Respelled t u → Respelled (c :: t) (d :: u)
  | other {d : Char} {t u : Text} :
    Unicode.isAlphanumeric d = false → Respelled t u → Respelled t (d :: u)

theorem foldName_cons (c : Char) (t : Text) :
    foldName (c :: t) =
      (if Unicode.isAlphanumeric c then Unicode.toLower c else []) ++ foldName t := by
  unfold foldName
  rw [List.filter_cons]
  split
  · exact List.flatMap_cons
  · rfl

theorem foldName_append (t u : Text) : foldName (t ++ u) = foldName t ++ foldName u := by
  simp [foldName]

theorem foldName_of_isSmall {t : Text} (h : t.all Unicode.isSmall = true) : foldName t = t := by
  induction t with
  | nil => rfl
  | cons c t ih =>
    obtain ⟨hc, ht⟩ := Bool.and_eq_true_iff.mp h
    rw [foldName_cons, Unicode.isAlphanumeric_of_isSmall hc, if_pos rfl, Unicode.toLower_of_isSmall hc,
      ih ht]
    rfl

/-- A name is folded alike however it is spelled. -/
theorem foldName_of_respelled {t u : Text} (h : Respelled t u) : foldName u = foldName t := by
  induction h with
  | nil => rfl
  | @letter c d t u hcase _ ih =>
    have halphanumeric : Unicode.isAlphanumeric d = Unicode.isAlphanumeric c := by
      rw [← Unicode.isAlphanumeric_asciiLower, hcase, Unicode.isAlphanumeric_asciiLower]
    have hlower : Unicode.toLower d = Unicode.toLower c := by
      rw [← Unicode.toLower_asciiLower, hcase, Unicode.toLower_asciiLower]
    rw [foldName_cons, foldName_cons, halphanumeric, hlower, ih]
  | other hother _ ih =>
    rw [foldName_cons, hother, ih]
    rfl

/-! ## The table -/

/-- The folded texts that stand for a language. -/
def keys (language : Language) : List Text :=
  language.code :: language.names

private theorem isKey_eq (language : Language) (folded : Text) :
    (language.code == folded || language.names.contains folded) =
      decide (folded ∈ language.keys) := by
  rw [Bool.eq_iff_iff, decide_eq_true_iff, keys, List.mem_cons, Bool.or_eq_true, beq_iff_eq,
    List.contains_iff_mem, @eq_comm _ folded]

/-- No two languages of the table share a name or code. -/
theorem find?_eq_some_iff {folded : Text} {language : Language} :
    find? folded = some language ↔ language ∈ all ∧ folded ∈ language.keys := by
  constructor
  · intro h
    have hkey := List.find?_some h
    rw [isKey_eq] at hkey
    exact ⟨List.mem_of_find?_eq_some h, of_decide_eq_true hkey⟩
  · rintro ⟨hlanguage, hkey⟩
    have hall : ∀ language ∈ all, ∀ key ∈ language.keys, find? key = some language := by
      decide +kernel
    exact hall language hlanguage folded hkey

/-- The code of a language is found by its number. -/
theorem codeOfId?_idOfCode {language : Language} (h : language ∈ all) :
    codeOfId? (idOfCode language.code) = some language.code := by
  have hall : ∀ language ∈ all, codeOfId? (idOfCode language.code) = some language.code := by
    decide +kernel
  exact hall language h

theorem foldName_code {language : Language} (h : language ∈ all) :
    foldName language.code = language.code := by
  have hall : ∀ language ∈ all, language.code.all Unicode.isSmall = true := by
    decide +kernel
  exact foldName_of_isSmall (hall language h)

theorem key_ne_nil {language : Language} {key : Text} (h : language ∈ all)
    (hkey : key ∈ language.keys) : key ≠ [] := by
  have hall : ∀ language ∈ all, ∀ key ∈ language.keys, key ≠ [] := by decide +kernel
  exact hall language h key hkey

/-! ## Suffixes -/

theorem stripSuffix?_eq_some_iff {t suffix stem : Text} :
    stripSuffix? t suffix = some stem ↔ t = stem ++ suffix := by
  unfold stripSuffix?
  constructor
  · intro h
    split at h
    · rename_i hsuffix
      obtain ⟨before, rfl⟩ := List.isSuffixOf_iff_suffix.mp hsuffix
      rw [List.length_append, Nat.add_sub_cancel, List.take_left] at h
      rw [Option.some.inj h]
    · cases h
  · rintro rfl
    rw [if_pos (List.isSuffixOf_iff_suffix.mpr (List.suffix_append stem suffix)),
      List.length_append, Nat.add_sub_cancel, List.take_left]

theorem foldName_suffix {suffix : Text} (h : suffix ∈ suffixes) : foldName suffix = suffix := by
  have hall : ∀ suffix ∈ suffixes, suffix.all Unicode.isSmall = true := by decide +kernel
  exact foldName_of_isSmall (hall suffix h)

/-- No suffix ends with another one. -/
theorem suffix_eq_of_suffix {s t : Text} (hs : s ∈ suffixes) (ht : t ∈ suffixes) (h : s <:+ t) :
    s = t := by
  have hall : ∀ s ∈ suffixes, ∀ t ∈ suffixes, s <:+ t → s = t := by decide +kernel
  exact hall s hs t ht h

/-- A name has at most one suffix. -/
theorem findSome?_stripSuffix? {suffix : Text} (h : suffix ∈ suffixes) (stem : Text) :
    suffixes.findSome? (stripSuffix? (stem ++ suffix)) = some stem := by
  have hfound : (suffixes.findSome? (stripSuffix? (stem ++ suffix))).isSome = true :=
    List.findSome?_isSome_iff.mpr
      ⟨suffix, h, Option.isSome_of_eq_some (stripSuffix?_eq_some_iff.mpr rfl)⟩
  obtain ⟨stem', hstem'⟩ := Option.isSome_iff_exists.mp hfound
  obtain ⟨suffix', hsuffix', hstrip⟩ := List.exists_of_findSome?_eq_some hstem'
  have hsplit := stripSuffix?_eq_some_iff.mp hstrip
  -- Of two ends of one text the shorter one is an end of the other
  have hsame : suffix = suffix' := by
    have hends : suffix' <:+ stem ++ suffix := hsplit ▸ List.suffix_append stem' suffix'
    rcases List.suffix_or_suffix_of_suffix (List.suffix_append stem suffix) hends with hle | hle
    · exact suffix_eq_of_suffix h hsuffix' hle
    · exact (suffix_eq_of_suffix hsuffix' h hle).symm
  subst hsame
  rw [hstem', List.append_cancel_right hsplit]

/-- The language of a name with a suffix is that of its stem. -/
theorem findVariant?_append {stem suffix : Text} (hstem : stem ≠ []) (h : suffix ∈ suffixes) :
    findVariant? (stem ++ suffix) = find? stem := by
  rw [findVariant?, findSome?_stripSuffix? h]
  exact if_neg hstem

/-- No name or code of the table ends with a suffix. -/
theorem find?_append_suffix {suffix : Text} (h : suffix ∈ suffixes) (stem : Text) :
    find? (stem ++ suffix) = none := by
  have hall : ∀ language ∈ all, ∀ key ∈ language.keys, ∀ suffix ∈ suffixes,
      ¬ suffix.isSuffixOf key = true := by
    decide +kernel
  cases hfind : find? (stem ++ suffix) with
  | none => rfl
  | some language =>
    obtain ⟨hlanguage, hkey⟩ := find?_eq_some_iff.mp hfind
    exact absurd (List.isSuffixOf_iff_suffix.mpr (List.suffix_append stem suffix))
      (hall language hlanguage _ hkey suffix h)

/-! ## Numbers -/

theorem ofName?_of_key {name : Text} {language : Language} (h : language ∈ all)
    (hkey : foldName name ∈ language.keys) : ofName? name = some language := by
  rw [ofName?, if_neg (key_ne_nil h hkey), find?_eq_some_iff.mpr ⟨h, hkey⟩]
  rfl

theorem ofName?_of_suffix {name suffix : Text} {language : Language} (h : language ∈ all)
    (hsuffix : suffix ∈ suffixes) {stem : Text} (hkey : stem ∈ language.keys)
    (hfold : foldName name = stem ++ suffix) : ofName? name = some language := by
  have hstem := key_ne_nil h hkey
  rw [ofName?, hfold, if_neg (List.append_ne_nil_of_left_ne_nil hstem suffix),
    find?_append_suffix hsuffix, findVariant?_append hstem hsuffix,
    find?_eq_some_iff.mpr ⟨h, hkey⟩]
  rfl

/-- A language that is found is one of the table. -/
theorem mem_all_of_ofName? {name : Text} {language : Language} (h : ofName? name = some language) :
    language ∈ all := by
  have hfind : ∀ {folded : Text}, find? folded = some language → language ∈ all :=
    fun h => (find?_eq_some_iff.mp h).1
  rw [ofName?] at h
  split at h
  · cases h
  rcases Option.or_eq_some_iff.mp h with hfull | ⟨-, hvariant⟩
  · exact hfind hfull
  · obtain ⟨stem, -, hstem⟩ := Option.bind_eq_some_iff.mp hvariant
    split at hstem
    · cases hstem
    · exact hfind hstem

theorem idOfName_of_ofName? {name : Text} {language : Language} (h : ofName? name = some language) :
    idOfName name = idOfCode language.code := by
  rw [idOfName, h]

/-- The number of a name is zero or that of a code which has the same number as a name. It does not
change with the spelling, nor when a suffix follows a name or code of the table. -/
theorem idOfName_stable (name : Text) :
    (idOfName name = 0 ∨
      ∃ code, codeOfId? (idOfName name) = some code ∧ idOfName code = idOfName name) ∧
    (∀ name', Respelled name name' → idOfName name' = idOfName name) ∧
    ∀ language ∈ all, foldName name ∈ language.keys →
      idOfName name = idOfCode language.code ∧
        ∀ suffix ∈ suffixes, ∀ tail, Respelled suffix tail →
          idOfName (name ++ tail) = idOfName name := by
  refine ⟨?_, ?_, ?_⟩
  · cases hname : ofName? name with
    | none =>
      left
      rw [idOfName, hname]
    | some language =>
      have hlanguage := mem_all_of_ofName? hname
      have hcode : foldName language.code ∈ language.keys := by
        rw [foldName_code hlanguage]
        exact List.mem_cons_self
      right
      refine ⟨language.code, ?_, ?_⟩
      · rw [idOfName_of_ofName? hname, codeOfId?_idOfCode hlanguage]
      · rw [idOfName_of_ofName? hname, idOfName_of_ofName? (ofName?_of_key hlanguage hcode)]
  · intro name' hspelled
    rw [idOfName, idOfName, ofName?, ofName?, foldName_of_respelled hspelled]
  · intro language hlanguage hkey
    have hid := idOfName_of_ofName? (ofName?_of_key hlanguage hkey)
    refine ⟨hid, fun suffix hsuffix tail hspelled => ?_⟩
    have hfold : foldName (name ++ tail) = foldName name ++ suffix := by
      rw [foldName_append, foldName_of_respelled hspelled, foldName_suffix hsuffix]
    rw [hid, idOfName_of_ofName? (ofName?_of_suffix hlanguage hsuffix hkey hfold)]

theorem idOfName_modernGreek :
    Respelled "prc".toList " (P.R.c.)".toList ∧
      idOfName ("modern GREEK".toList ++ " (P.R.c.)".toList) = idOfCode "el".toList := by
  have hspelled : Respelled "prc".toList " (P.R.c.)".toList :=
    .other (by decide +kernel) <| .other (by decide +kernel) <| .letter rfl <|
      .other (by decide +kernel) <| .letter rfl <| .other (by decide +kernel) <| .letter rfl <|
      .other (by decide +kernel) <| .other (by decide +kernel) .nil
  have hgreek : row "el" ["greek", "moderngreek"] (some 1032) ∈ all := by decide +kernel
  have hkey : foldName "modern GREEK".toList ∈
      (row "el" ["greek", "moderngreek"] (some 1032)).keys := by decide +kernel
  obtain ⟨hid, hsuffix⟩ := (idOfName_stable "modern GREEK".toList).2.2 _ hgreek hkey
  exact ⟨hspelled, (hsuffix "prc".toList (by decide) _ hspelled).trans hid⟩

end Language

end Lexicon
