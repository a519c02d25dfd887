import Lexicon.Proofs.Dictionary.PhysicalLines
import Lexicon.Proofs.Encoding.TextUnits

/-!
# Written dictionaries

A dictionary that has been written in UTF-8 or UTF-16, with a byte-order mark, is read back: the
encoding, the header, and each line behind it with its place.

## Key results

- `TextLine.stretches_written`: written lines are cut apart where they were put together
- `Dictionary.outcome_write`: what opening makes of a written dictionary
- `Dictionary.observe_written`: what is read from it
-/

namespace Lexicon

/-! ## Writing -/

def LineEnding.text : LineEnding → Text
  | lf => ['\n']
  | crlf => ['\r', '\n']

/-- A line to be written, with its terminator. -/
structure TextLine where
  text : Text
  ending : Option LineEnding
  deriving DecidableEq, Repr

namespace TextLine

def written (l : TextLine) : Text :=
  match l.ending with
  | some ending => l.text ++ ending.text
  | none => l.text

/-- The lines can be told apart when they have been written: no line holds a line feed or ends with a
carriage return, and only the last line may lack a terminator, unless it is empty. -/
structure Separable (lines : List TextLine) : Prop where
  feed : ∀ l ∈ lines, '\n' ∉ l.text
  carriageReturn : ∀ l ∈ lines, l.text.getLast? ≠ some '\r'
  terminated : ∀ l ∈ lines.dropLast, l.ending ≠ none
  last : ∀ l ∈ lines.getLast?, l.ending = none → l.text ≠ []

end TextLine

/-- The bytes of a source with a byte-order mark and some lines. -/
def UnicodeForm.write (f : UnicodeForm) (lines : List TextLine) : List UInt8 :=
  f.mark ++ f.encode (lines.flatMap TextLine.written)

/-! ## Cutting written lines apart -/

/-- Code units that are no line feeds go to the line. -/
theorem stretchesAfter_append {e : Encoding} {us : List (List UInt8)}
    (h : e.asciiUnit 0x0A ∉ us) (line : List UInt8) (more : List (List UInt8)) :
    stretchesAfter e line (us ++ more) = stretchesAfter e (line ++ us.flatten) more := by
  induction us generalizing line with
  | nil => rw [List.nil_append, List.flatten_nil, List.append_nil]
  | cons u us ih =>
    have hu : ¬ u = e.asciiUnit 0x0A := fun heq => h (heq ▸ List.mem_cons_self)
    rw [List.cons_append, stretchesAfter, if_neg hu, ih (fun hmem => h (List.mem_cons_of_mem u hmem)),
      List.flatten_cons, List.append_assoc]

namespace TextLine

variable {f : UnicodeForm} {l : TextLine} {rest : List TextLine}

/-- The line up to its line feed. -/
def body (l : TextLine) : Text :=
  if l.ending = some .crlf then l.text ++ ['\r'] else l.text

/-- The line as it stands in the bytes. -/
def stretch (f : UnicodeForm) (l : TextLine) : Stretch :=
  ⟨f.encode l.body, l.ending.isSome⟩

theorem written_of_some (h : l.ending ≠ none) : l.written = l.body ++ ['\n'] := by
  obtain ⟨text, ending⟩ := l
  rcases ending with _ | _ | _
  · exact absurd rfl h
  · rfl
  · exact (List.append_assoc text ['\r'] ['\n']).symm

theorem written_of_none (h : l.ending = none) : l.written = l.text ∧ l.body = l.text := by
  unfold written body
  rw [h]
  exact ⟨rfl, rfl⟩

theorem feed_not_mem_body (h : '\n' ∉ l.text) : '\n' ∉ l.body := by
  unfold body
  split
  · intro hmem
    rcases List.mem_append.mp hmem with hmem | hmem
    · exact h hmem
    · exact absurd (List.mem_singleton.mp hmem) (by decide)
  · exact h

theorem Separable.of_cons (h : Separable (l :: rest)) : Separable rest := by
  refine ⟨fun k hk => h.feed k (List.mem_cons_of_mem l hk),
    fun k hk => h.carriageReturn k (List.mem_cons_of_mem l hk), ?_, ?_⟩
  · cases rest with
    | nil => intro k hk; cases hk
    | cons next rest => exact fun k hk => h.terminated k (List.mem_cons_of_mem l hk)
  · cases rest with
    | nil => intro k hk; cases hk
    | cons next rest => exact h.last

/-- A line without a terminator is the last one, and not empty. -/
theorem Separable.of_ending_eq_none (h : Separable (l :: rest)) (hl : l.ending = none) :
    rest = [] ∧ l.text ≠ [] := by
  cases rest with
  | nil => exact ⟨rfl, h.last l rfl hl⟩
  | cons next rest => exact absurd hl (h.terminated l List.mem_cons_self)

private theorem feed_not_mem_codeUnits {t : Text} (h : '\n' ∉ t) :
    f.encoding.asciiUnit 0x0A ∉ f.encoding.codeUnits (f.encode t) :=
  fun hmem => h (UnicodeForm.mem_of_mem_codeUnits isAscii_lineFeed hmem)

private theorem stretches_append {t : Text} (h : '\n' ∉ t) (s : Text) :
    stretches f.encoding (f.encode (t ++ '\n' :: s)) =
      ⟨f.encode t, true⟩ :: stretches f.encoding (f.encode s) := by
  have hfeed : f.encode ('\n' :: s) = f.encoding.asciiUnit 0x0A ++ f.encode s := by
    rw [← UnicodeForm.encode_ascii f isAscii_lineFeed, ← UnicodeForm.encode_append,
      List.singleton_append]
  rw [UnicodeForm.encode_append, hfeed, stretches, Encoding.codeUnits_append (f.whole_encode t),
    Encoding.codeUnits_append (Encoding.whole_asciiUnit f.encoding 0x0A),
    Encoding.codeUnits_asciiUnit, stretchesAfter_append (feed_not_mem_codeUnits h),
    Encoding.flatten_codeUnits, List.nil_append, List.singleton_append, stretchesAfter, if_pos rfl]
  rfl

private theorem stretches_last {t : Text} (h : '\n' ∉ t) (hne : t ≠ []) :
    stretches f.encoding (f.encode t) = [⟨f.encode t, false⟩] := by
  have hsplit := stretchesAfter_append (feed_not_mem_codeUnits (f := f) h) [] []
  rw [List.append_nil, Encoding.flatten_codeUnits, List.nil_append] at hsplit
  rw [stretches, hsplit, stretchesAfter, if_neg (f.encode_ne_nil hne)]

/-- Written lines are cut apart where they were put together. -/
theorem stretches_written {lines : List TextLine} (h : Separable lines) :
    stretches f.encoding (f.encode (lines.flatMap written)) = lines.map (stretch f) := by
  induction lines with
  | nil => exact stretches_nil f.encoding
  | cons l rest ih =>
    have hfeed := feed_not_mem_body (h.feed l List.mem_cons_self)
    rw [List.flatMap_cons, List.map_cons]
    by_cases hl : l.ending = none
    · -- Nothing follows
      obtain ⟨rfl, hne⟩ := h.of_ending_eq_none hl
      obtain ⟨hwritten, hbody⟩ := written_of_none hl
      rw [List.flatMap_nil, List.append_nil, hwritten, ← hbody,
        stretches_last hfeed (by rwa [hbody]), stretch, hl]
      rfl
    · have hsome : l.ending.isSome = true := Option.isSome_iff_ne_none.mpr hl
      rw [written_of_some hl, List.append_assoc, List.singleton_append, stretches_append hfeed,
        ih h.of_cons, stretch, hsome]

/-! ## Written lines -/

theorem hasReturn_stretch (hreturn : l.text.getLast? ≠ some '\r') :
    (l.stretch f).hasReturn f.encoding = true ↔ l.ending = some .crlf := by
  rw [Stretch.hasReturn, List.isSuffixOf_iff_suffix, stretch,
    UnicodeForm.asciiUnit_suffix_iff f isAscii_carriageReturn, body]
  by_cases hl : l.ending = some .crlf
  · rw [if_pos hl, List.getLast?_concat]
    exact ⟨fun _ => hl, fun _ => rfl⟩
  · rw [if_neg hl]
    exact ⟨fun hlast => absurd hlast hreturn, fun heq => absurd heq hl⟩

/-- The carriage return of a terminator is no part of the line. -/
theorem content_stretch (hreturn : l.text.getLast? ≠ some '\r') :
    (l.stretch f).content f.encoding = f.encode l.text := by
  unfold Stretch.content
  by_cases hl : l.ending = some .crlf
  · have hbody : f.encode l.body = f.encode l.text ++ f.encoding.asciiUnit 0x0D := by
      rw [body, if_pos hl, UnicodeForm.encode_append,
        UnicodeForm.encode_ascii f isAscii_carriageReturn]
    have hlength : (f.encode l.text ++ f.encoding.asciiUnit 0x0D).length - f.encoding.unitWidth =
        (f.encode l.text).length := by
      rw [List.length_append, Encoding.length_asciiUnit, Nat.add_sub_cancel]
    rw [if_pos ((hasReturn_stretch hreturn).mpr hl)]
    show (f.encode l.body).take ((f.encode l.body).length - _) = _
    rw [hbody, hlength, List.take_left]
  · rw [if_neg (mt (hasReturn_stretch hreturn).mp hl), stretch, body, if_neg hl]

theorem isHeader_stretch (hreturn : l.text.getLast? ≠ some '\r') :
    (l.stretch f).isHeader f.encoding = true ↔ l.text.head? = some '#' := by
  rw [Stretch.isHeader, content_stretch hreturn, List.isPrefixOf_iff_prefix,
    UnicodeForm.asciiUnit_prefix_iff f isAscii_numberSign]

theorem span_stretch (f : UnicodeForm) (l : TextLine) :
    (l.stretch f).span f.encoding = (f.encode l.written).length := by
  unfold Stretch.span stretch
  by_cases hl : l.ending = none
  · obtain ⟨hwritten, hbody⟩ := written_of_none hl
    rw [hwritten, hbody, hl]
    rfl
  · have hsome : l.ending.isSome = true := Option.isSome_iff_ne_none.mpr hl
    rw [written_of_some hl, UnicodeForm.encode_append, UnicodeForm.encode_ascii f isAscii_lineFeed,
      List.length_append, Encoding.length_asciiUnit]
    simp only [hsome, if_true]

end TextLine

/-! ## Written sources -/

namespace UnicodeForm

theorem markEncoding?_write (f : UnicodeForm) (lines : List TextLine) :
    markEncoding? (f.write lines) = some f.encoding := by
  unfold write
  rcases f with _ | _ | _
  · simp [markEncoding?, mark, encoding]
  · simp [markEncoding?, mark, encoding]
  · simp [markEncoding?, mark, encoding]

theorem markLength_write (f : UnicodeForm) (lines : List TextLine) :
    markLength (f.write lines) = f.mark.length := by
  unfold write
  rcases f with _ | _ | _
  · simp [markLength, mark]
  · simp [markLength, mark]
  · simp [markLength, mark]

theorem not_markTruncated_write (f : UnicodeForm) (lines : List TextLine) :
    ¬ MarkTruncated (f.write lines) := by
  unfold write
  rcases f with _ | _ | _
  · simp [MarkTruncated, mark]
  · simp [MarkTruncated, mark]
  · simp [MarkTruncated, mark]

theorem not_magic_prefix_write (f : UnicodeForm) (lines : List TextLine) :
    ¬ Gzip.MemberHeader.magic <+: f.write lines := by
  unfold write
  rcases f with _ | _ | _
  · simp [Gzip.MemberHeader.magic, mark]
  · simp [Gzip.MemberHeader.magic, mark]
  · simp [Gzip.MemberHeader.magic, mark]

end UnicodeForm

/-! ## Lines of a written dictionary -/

/-- The lines of a dictionary: those of the header start with a number sign, and there is a line
behind them that does not. -/
structure DictionaryLines (headers articles : List TextLine) : Prop where
  header : ∀ l ∈ headers, l.text.head? = some '#'
  article : ∀ l ∈ articles.head?, l.text.head? ≠ some '#'
  nonempty : articles ≠ []
  separable : TextLine.Separable (headers ++ articles)

section Lines

variable {f : UnicodeForm} {headers articles : List TextLine}

/-- One more line adds as many bytes as it spans. -/
theorem length_write_concat (f : UnicodeForm) (lines : List TextLine) (l : TextLine) :
    (f.write (lines ++ [l])).length = (f.write lines).length + (l.stretch f).span f.encoding := by
  rw [TextLine.span_stretch, UnicodeForm.write, UnicodeForm.write, List.flatMap_append,
    List.flatMap_singleton, UnicodeForm.encode_append, ← List.append_assoc, List.length_append]

/-- Where the lines stand that are written behind others. -/
theorem place_append (before first second : List TextLine) (number : Nat) :
    place f.encoding (f.write before).length number ((first ++ second).map (TextLine.stretch f)) =
      place f.encoding (f.write before).length number (first.map (TextLine.stretch f)) ++
        place f.encoding (f.write (before ++ first)).length (number + first.length)
          (second.map (TextLine.stretch f)) := by
  -- A line passes from those to be placed to those before
  induction first generalizing before number with
  | nil => rw [List.nil_append, List.append_nil]; rfl
  | cons l first ih =>
    have hcount : number + (l :: first).length = number + 1 + first.length := by
      rw [List.length_cons]
      omega
    rw [List.cons_append, List.map_cons, List.map_cons, place, place, ← length_write_concat, ih,
      List.cons_append, hcount, List.append_assoc]
    rfl

theorem mem_of_mem_place {e : Encoding} {offset number : Nat} {ls : List Stretch}
    {l : PlacedStretch} (h : l ∈ place e offset number ls) : l.toStretch ∈ ls := by
  induction ls generalizing offset number with
  | nil => cases h
  | cons first ls ih =>
    rcases List.mem_cons.mp h with rfl | h
    · exact List.mem_cons_self
    · exact List.mem_cons_of_mem first (ih h)

theorem linesOf_write (h : DictionaryLines headers articles) :
    linesOf f.encoding (f.write (headers ++ articles)) =
      place f.encoding (f.write []).length 1 (headers.map (TextLine.stretch f)) ++
        place f.encoding (f.write headers).length (1 + headers.length)
          (articles.map (TextLine.stretch f)) := by
  have hmark : (f.write []).length = f.mark.length := by
    rw [UnicodeForm.write, List.flatMap_nil]
    exact congrArg List.length (List.append_nil f.mark)
  have hsplit := place_append (f := f) [] headers articles 1
  rw [List.nil_append] at hsplit
  rw [← hsplit, linesOf, UnicodeForm.markLength_write, hmark, UnicodeForm.write, List.drop_left,
    TextLine.stretches_written h.separable]

theorem isHeader_of_mem_place (h : DictionaryLines headers articles) (offset number : Nat)
    {l : PlacedStretch} (hl : l ∈ place f.encoding offset number (headers.map (TextLine.stretch f))) :
    l.isHeader f.encoding = true := by
  obtain ⟨k, hk, hstretch⟩ := List.mem_map.mp (mem_of_mem_place hl)
  rw [← hstretch]
  exact (TextLine.isHeader_stretch
    (h.separable.carriageReturn k (List.mem_append_left articles hk))).mpr (h.header k hk)

/-- The header of a written dictionary ends where it was written to end. -/
theorem headerLines_write (h : DictionaryLines headers articles) :
    headerLines f.encoding (f.write (headers ++ articles)) =
        place f.encoding (f.write []).length 1 (headers.map (TextLine.stretch f)) ∧
      articleLines f.encoding (f.write (headers ++ articles)) =
        place f.encoding (f.write headers).length (1 + headers.length)
          (articles.map (TextLine.stretch f)) := by
  have hheader := fun l hl =>
    isHeader_of_mem_place (f := f) (l := l) h (f.write []).length 1 hl
  obtain ⟨l, rest, rfl⟩ := List.exists_cons_of_ne_nil h.nonempty
  have hl : ¬ (l.stretch f).isHeader f.encoding = true := by
    rw [TextLine.isHeader_stretch
      (h.separable.carriageReturn l (List.mem_append_right headers List.mem_cons_self))]
    exact h.article l rfl
  rw [headerLines, articleLines, linesOf_write h, List.takeWhile_append_of_pos hheader,
    List.dropWhile_append_of_pos hheader, List.map_cons, place, List.takeWhile_cons,
    List.dropWhile_cons, if_neg hl, if_neg hl, List.append_nil]
  exact ⟨rfl, rfl⟩

theorem text_stretch {l : TextLine} (hreturn : l.text.getLast? ≠ some '\r') (offset number : Nat) :
    PlacedStretch.text f.encoding ⟨l.stretch f, offset, number⟩ = .ok l.text := by
  have hdecode : f.encoding.decode? ((l.stretch f).content f.encoding) = some l.text := by
    rw [TextLine.content_stretch hreturn, UnicodeForm.decode?_encode]
  rw [PlacedStretch.text, hdecode]

theorem mapM_text_place {lines : List TextLine}
    (h : ∀ l ∈ lines, l.text.getLast? ≠ some '\r') (offset number : Nat) :
    (place f.encoding offset number (lines.map (TextLine.stretch f))).mapM
        (PlacedStretch.text f.encoding) = .ok (lines.map TextLine.text) := by
  induction lines generalizing offset number with
  | nil => rfl
  | cons l rest ih =>
    rw [List.map_cons, place, List.mapM_cons, text_stretch (h l List.mem_cons_self),
      ih fun k hk => h k (List.mem_cons_of_mem l hk)]
    rfl

theorem result_stretch {l : TextLine} (hreturn : l.text.getLast? ≠ some '\r') (offset number : Nat) :
    PlacedStretch.result f.encoding ⟨l.stretch f, offset, number⟩ = .ok (some ⟨l.text, offset⟩) := by
  rw [PlacedStretch.result_eq, text_stretch hreturn]
  rfl

/-- Each line is read from behind the bytes of those before it. -/
theorem map_result_place {lines : List TextLine} (h : ∀ l ∈ lines, l.text.getLast? ≠ some '\r')
    (before : List TextLine) (number : Nat) :
    (place f.encoding (f.write before).length number (lines.map (TextLine.stretch f))).map
        (PlacedStretch.result f.encoding) =
      lines.mapIdx fun i l => .ok (some ⟨l.text, (f.write (before ++ lines.take i)).length⟩) := by
  induction lines generalizing before number with
  | nil => rfl
  | cons l rest ih =>
    rw [List.map_cons, place, List.map_cons, result_stretch (h l List.mem_cons_self),
      ← length_write_concat, ih (fun k hk => h k (List.mem_cons_of_mem l hk)), List.mapIdx_cons,
      List.take_zero, List.append_nil]
    simp only [List.take_succ_cons, List.append_assoc, List.singleton_append]

end Lines

namespace Dictionary

/-- A written dictionary is opened in the form in which it was written, whatever the user says. -/
theorem outcome_write {f : UnicodeForm} {headers articles : List TextLine}
    (h : DictionaryLines headers articles) (label : Option Text) :
    outcome label (f.write (headers ++ articles)) =
      .ok (f.encoding, headers.map TextLine.text) := by
  obtain ⟨hheaders, harticles⟩ := headerLines_write (f := f) h
  -- The mark settles the encoding, so no code page is looked for
  have hsettled : settledEncoding? label (f.write (headers ++ articles)) = some f.encoding := by
    rw [settledEncoding?, UnicodeForm.markEncoding?_write, Option.some_or]
  have hne : f.write (headers ++ articles) ≠ [] := by
    intro hnil
    have hmark := UnicodeForm.markEncoding?_write f (headers ++ articles)
    rw [hnil] at hmark
    cases hmark
  have hsome : ¬ ∀ l ∈ linesOf f.encoding (f.write (headers ++ articles)),
      l.isHeader f.encoding = true := by
    intro hall
    obtain ⟨l, rest, rfl⟩ := List.exists_cons_of_ne_nil h.nonempty
    rw [articleLines, List.dropWhile_eq_nil_iff.mpr hall] at harticles
    cases harticles
  rw [outcome, if_neg hne, if_neg (UnicodeForm.not_markTruncated_write f _)]
  simp only [workingEncoding, finalEncoding, hsettled, Option.getD_some]
  rw [if_neg hsome]
  show (headerLines f.encoding (f.write (headers ++ articles))).mapM
    (PlacedStretch.text f.encoding) >>= _ = _
  rw [hheaders, mapM_text_place fun l hl =>
    h.separable.carriageReturn l (List.mem_append_left articles hl)]
  rfl

/-- What has been written is read: the encoding, the header, and behind it line by line, each from
behind the mark and all lines before it, and then the end. -/
theorem observe_written {f : UnicodeForm} {headers articles : List TextLine} {label : Option Text}
    {source : Source} (h : DictionaryLines headers articles) (hcalm : source.Calm)
    (hstart : source.head? ≠ some .interrupted)
    (hbytes : source.bytes = f.write (headers ++ articles)) :
    ∃ d, ofSource label source = .ok d ∧ d.encoding = f.encoding ∧
      d.header = Header.ofLines (headers.map TextLine.text) ∧
      (d.observe ⟨false, false⟩ (articles.length + 1)).map Observation.result =
        articles.mapIdx
            (fun i l => .ok (some ⟨l.text, (f.write (headers ++ articles.take i)).length⟩)) ++
          [.ok none] := by
  have hplain : ¬ Gzip.MemberHeader.magic <+: source.bytes := by
    rw [hbytes]
    exact UnicodeForm.not_magic_prefix_write f _
  obtain ⟨stream, hstream, hcarries⟩ := Stream.exists_carries hcalm hplain hstart
  have hfollows := @follows_ofSource label _ source stream hstream hcarries
  rw [hbytes, outcome_write h] at hfollows
  obtain ⟨d, hd, hencoding, hheader, hopened⟩ := hfollows
  refine ⟨d, hd, hencoding, hheader, ?_⟩
  -- What is read of the bytes is what stands where it was written
  have hobserve := hopened.observe_eq
  rw [hencoding, (headerLines_write h).2] at hobserve
  have hlength : (place f.encoding (f.write headers).length (1 + headers.length)
      (articles.map (TextLine.stretch f))).length = articles.length := by
    rw [length_place, List.length_map]
  have hresults := map_result_place (f := f)
    (fun l hl => h.separable.carriageReturn l (List.mem_append_right headers hl)) headers
    (1 + headers.length)
  rw [hlength] at hobserve
  rw [hobserve, List.map_append, List.map_map, ← hresults]
  rfl

/-- Characters whose bytes look like line feeds, carriage returns and number signs, a surrogate pair,
and terminators of both kinds. -/
private def trickyHeader : List TextLine :=
  [⟨"#NAME \"\u230A\u0D23\"".toList, some .crlf⟩]

private def trickyArticles : List TextLine :=
  [⟨['\u0A23', '\u0D0A', '😀'], some .lf⟩, ⟨[], some .crlf⟩, ⟨['\t', '#', '\u0D0D'], none⟩]

theorem observe_tricky :
    ∃ d, ofSource (some "utf-8".toList)
        (.ofBytes 3 ((UnicodeForm.utf16 .big).write (trickyHeader ++ trickyArticles))) = .ok d ∧
      d.encoding = .utf16 .big ∧ d.header = { Header.empty with name := ['\u230A', '\u0D23'] } ∧
      (d.observe ⟨false, false⟩ 4).map Observation.result =
        [.ok (some ⟨['\u0A23', '\u0D0A', '😀'], 26⟩), .ok (some ⟨[], 36⟩),
          .ok (some ⟨['\t', '#', '\u0D0D'], 40⟩), .ok none] := by
  have hlines : DictionaryLines trickyHeader trickyArticles := by
    refine ⟨by decide, ?_, by decide, ⟨by decide, by decide, by decide, ?_⟩⟩
    · rintro l ⟨⟩
      decide
    · rintro l ⟨⟩
      decide
  obtain ⟨d, hd, hencoding, hheader, hobserve⟩ :=
    @observe_written (.utf16 .big) trickyHeader trickyArticles (some "utf-8".toList)
      (.ofBytes 3 ((UnicodeForm.utf16 .big).write (trickyHeader ++ trickyArticles))) hlines
      (by decide +kernel) (by decide +kernel) (by decide +kernel)
  refine ⟨d, hd, hencoding, ?_, ?_⟩
  · rw [hheader]
    decide +kernel
  · rw [show (4 : Nat) = trickyArticles.length + 1 from rfl, hobserve]
    decide +kernel

end Dictionary

end Lexicon
