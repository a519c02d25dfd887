import Lexicon.Proofs.Encoding.Preamble
import Lexicon.Proofs.Source.LineReading
import Mathlib.Data.List.TakeWhile

/-!
# Reading the header

The first bytes of a source are there before they are looked at, however they arrive, and its header
is what stands before the first line without a number sign. The header is cut into lines before its
encoding is known, but all that can still happen is that UTF-8 becomes a code page, in which the lines
are the same.

## Key results

- `Stream.Carries.fill`: the first bytes are there before they are looked at
- `sameLines_of_finalEncoding`: the final encoding does not change what has been read
- `Opening.read_of_article`, `Opening.read_of_headers`: the header ends before the first line without
  a number sign, and there must be one
- `Opening.decodeLines_headerLines`: the first header line that cannot be decoded is reported
- `Dictionary.ofSource_of_mark`, `Dictionary.ofSource_of_defect`: the steps of opening
-/

namespace Lexicon

/-! ## The first bytes -/

namespace Stream

/-- Filling reads until there are enough bytes or none are left. -/
theorem Carries.fill {s : Stream} {bytes : List UInt8} (h : s.Carries bytes) {n : Nat}
    (hn : n ≤ bufferStep) (buffered : List UInt8) (hroom : buffered.length ≤ s.capacity) :
    ∃ b s' left, s.fill n buffered = .ok (b, s') ∧ s'.Carries left ∧ buffered ++ bytes = b ++ left ∧
      b.length ≤ s'.capacity ∧ (n ≤ b.length ∨ left = []) := by
  -- Every read takes some of the bytes that are left, and goes into the buffer
  fun_induction Stream.fill n buffered s generalizing bytes with
  | case1 buffered s hle => exact ⟨buffered, s, bytes, rfl, h, rfl, hroom, .inl hle⟩
  | case2 buffered s hlt fault rest hr =>
    obtain ⟨chunk, s', left, hread, -⟩ := h.read hroom
    rw [hread] at hr
    cases hr
  | case3 buffered s hlt rest hr =>
    obtain ⟨chunk, s', left, hread, -, -, -, hnil⟩ := h.read hroom
    rw [hread] at hr
    cases hr
    rw [hnil rfl]
    have hle : buffered.length ≤ exhausted.capacity := by
      show buffered.length ≤ bufferStep
      omega
    exact ⟨buffered, exhausted, [], rfl, carries_exhausted, rfl, hle, .inr rfl⟩
  | case4 buffered s hlt b chunk rest hr =>
    rename_i ih
    obtain ⟨chunk', s', left, hread, hleft, hsplit, hroom', -⟩ := h.read hroom
    rw [hread] at hr
    cases hr
    obtain ⟨b', s'', left', hfill, hleft', hsplit', hlen, hend⟩ :=
      ih hleft (by rw [List.length_append]; exact hroom')
    refine ⟨b', s'', left', hfill, hleft', ?_, hlen, hend⟩
    rw [← hsplit', hsplit, List.append_assoc]

end Stream

/-! ## Lines of a source -/

/-- The lines behind the byte-order mark of a source, with their places. -/
def linesOf (e : Encoding) (bytes : List UInt8) : List PlacedStretch :=
  place e (markLength bytes) 1 (stretches e (bytes.drop (markLength bytes)))

def headerLines (e : Encoding) (bytes : List UInt8) : List PlacedStretch :=
  (linesOf e bytes).takeWhile (·.isHeader e)

def articleLines (e : Encoding) (bytes : List UInt8) : List PlacedStretch :=
  (linesOf e bytes).dropWhile (·.isHeader e)

/-- The terminator of the first line of a source that has one. -/
def firstEnding? (e : Encoding) (bytes : List UInt8) : Option LineEnding :=
  (linesOf e bytes).findSome? (·.ending? e)

@[simp]
theorem length_place (e : Encoding) (offset number : Nat) (ls : List Stretch) :
    (place e offset number ls).length = ls.length := by
  induction ls generalizing offset number with
  | nil => rfl
  | cons l rest ih => rw [place, List.length_cons, List.length_cons, ih]

theorem findSome?_place {α : Type} (e : Encoding) (offset number : Nat) (ls : List Stretch)
    (f : Stretch → Option α) :
    (place e offset number ls).findSome? (fun l => f l.toStretch) = ls.findSome? f := by
  induction ls generalizing offset number with
  | nil => rfl
  | cons l rest ih => rw [place, List.findSome?_cons, List.findSome?_cons, ih]

/-- Lines are numbered one after the other. -/
theorem number_of_dropWhile_place {e : Encoding} {offset number : Nat} {ls : List Stretch}
    {p : PlacedStretch → Bool} {l : PlacedStretch} {rest : List PlacedStretch}
    (h : (place e offset number ls).dropWhile p = l :: rest) :
    l.number = number + ((place e offset number ls).takeWhile p).length := by
  induction ls generalizing offset number with
  | nil => cases h
  | cons first ls ih =>
    rw [place, List.dropWhile_cons] at h
    rw [place, List.takeWhile_cons]
    split at h
    · rename_i hp
      rw [if_pos hp, ih h, List.length_cons]
      omega
    · rename_i hp
      cases h
      rw [if_neg hp]
      rfl

/-! ## Code pages

The lines of a source are the same in a code page and in UTF-8. -/

private theorem stretchesAfter_singleByte (page : CodePage) (line : List UInt8)
    (units : List (List UInt8)) :
    stretchesAfter (.singleByte page) line units = stretchesAfter .utf8 line units := by
  induction units generalizing line with
  | nil => rfl
  | cons u rest ih =>
    rw [stretchesAfter, stretchesAfter, ih, ih]
    rfl

theorem stretches_singleByte (page : CodePage) :
    stretches (.singleByte page) = stretches .utf8 := by
  funext bytes
  exact stretchesAfter_singleByte page [] _

private theorem place_singleByte (page : CodePage) :
    place (.singleByte page) = place .utf8 := by
  funext offset number ls
  induction ls generalizing offset number with
  | nil => rfl
  | cons l rest ih =>
    rw [place, place, ih]
    rfl

private theorem linesOf_singleByte (page : CodePage) :
    linesOf (.singleByte page) = linesOf .utf8 := by
  funext bytes
  rw [linesOf, linesOf, stretches_singleByte, place_singleByte]

/-- Lines are the same in two encodings. -/
structure SameLines (e e' : Encoding) : Prop where
  linesOf_eq : linesOf e = linesOf e'
  isHeader_eq : Stretch.isHeader e = Stretch.isHeader e'
  ending_eq : Stretch.ending? e = Stretch.ending? e'
  physical_eq : PlacedStretch.physical e = PlacedStretch.physical e'
  stands : ∀ {lines total ending} {s : LineStream}, s.Stands e' lines total ending →
    s.Stands e lines total ending

theorem SameLines.refl (e : Encoding) : SameLines e e :=
  ⟨rfl, rfl, rfl, rfl, fun h => h⟩

theorem sameLines_singleByte (page : CodePage) : SameLines (.singleByte page) .utf8 := by
  refine ⟨linesOf_singleByte page, rfl, rfl, rfl, ?_⟩
  rintro lines total ending s ⟨ls, ⟨left, hleft, hroom, hcut⟩, hlines, htotal, hending⟩
  rw [← stretches_singleByte page] at hcut
  rw [← place_singleByte page] at hlines
  exact ⟨ls, ⟨left, hleft, hroom, hcut⟩, hlines, htotal, hending⟩

namespace SameLines

variable {e e' : Encoding} (h : SameLines e e') (bytes : List UInt8)
include h

theorem headerLines_eq : headerLines e bytes = headerLines e' bytes := by
  rw [headerLines, headerLines, h.linesOf_eq, h.isHeader_eq]

theorem articleLines_eq : articleLines e bytes = articleLines e' bytes := by
  rw [articleLines, articleLines, h.linesOf_eq, h.isHeader_eq]

theorem firstEnding?_eq : firstEnding? e bytes = firstEnding? e' bytes := by
  rw [firstEnding?, firstEnding?, h.linesOf_eq, h.ending_eq]

end SameLines

/-- The header can only turn UTF-8 into a code page. -/
theorem finalEncoding_cases {label name : Option Text} {bytes : List UInt8} {e : Encoding}
    (h : finalEncoding label name bytes = .ok e) :
    e = workingEncoding label bytes ∨
      workingEncoding label bytes = .utf8 ∧ ∃ page, e = .singleByte page := by
  unfold finalEncoding at h
  unfold workingEncoding
  split at h
  · rename_i hsettled
    cases h
    rw [hsettled]
    exact .inl rfl
  · rename_i hsettled
    cases h
    rw [hsettled]
    exact .inl rfl
  · rename_i hsettled
    rw [hsettled]
    split at h
    · cases h
      exact .inr ⟨rfl, _, rfl⟩
    · cases h

theorem sameLines_of_finalEncoding {label name : Option Text} {bytes : List UInt8} {e : Encoding}
    (h : finalEncoding label name bytes = .ok e) : SameLines e (workingEncoding label bytes) := by
  rcases finalEncoding_cases h with rfl | ⟨hutf8, page, rfl⟩
  · exact .refl _
  · rw [hutf8]
    exact sameLines_singleByte page

/-! ## Reading the header -/

private theorem isHeader_iff (e : Encoding) (l : PlacedStretch) :
    e.firstUnit? (l.physical e).bytes = some Encoding.headerUnit ↔ l.isHeader e = true := by
  rw [Stretch.isHeader, List.isPrefixOf_iff_prefix, ← Encoding.firstUnit?_eq_some_iff]
  rfl

/-- A stream of which the first bytes have been read stands before the first line. -/
theorem LineStream.stands_start {e : Encoding} {stream : Stream} {buffered left : List UInt8}
    (hleft : stream.Carries left) (hroom : buffered.length ≤ stream.capacity)
    (hmark : markLength (buffered ++ left) ≤ buffered.length) :
    LineStream.Stands e (linesOf e (buffered ++ left)) (linesOf e (buffered ++ left)).length
      (firstEnding? e (buffered ++ left))
      ⟨buffered.drop (markLength (buffered ++ left)), stream, markLength (buffered ++ left), 0, 0,
        none⟩ := by
  refine ⟨_, ⟨left, hleft, ?_, rfl⟩, ?_, ?_, ?_⟩
  · show (buffered.drop _).length ≤ stream.capacity
    rw [List.length_drop]
    omega
  · rw [← List.drop_append_of_le_length hmark, linesOf, offset, Nat.zero_add]
  · rw [← List.drop_append_of_le_length hmark, linesOf, length_place, Nat.zero_add]
  · rw [← List.drop_append_of_le_length hmark, firstEnding?, linesOf, findSome?_place,
      Option.none_or]

/-- The header is what stands before the first line without a number sign. -/
theorem Opening.read_of_article {e : Encoding} {lines rest : List PlacedStretch}
    {l : PlacedStretch} {total : Nat} {ending : Option LineEnding} (done : List PhysicalLine)
    {s : LineStream} (h : s.Stands e lines total ending)
    (hlines : lines.dropWhile (·.isHeader e) = l :: rest) :
    ∃ o, Opening.read e done s = .ok o ∧
      o.header = done.reverse ++ (lines.takeWhile (·.isHeader e)).map (·.physical e) ∧
      o.first = l.physical e ∧ o.stream.Gave e l rest total ending := by
  -- The lines to come shrink with every header line; those read stand in `done`
  induction lines generalizing done s with
  | nil => cases hlines
  | cons top lines ih =>
    obtain ⟨s', hread, hgave⟩ := h.readLine_cons
    rw [Opening.read, hread]
    simp only
    by_cases hheader : top.isHeader e = true
    · rw [List.dropWhile_cons, if_pos hheader] at hlines
      obtain ⟨o, hrest, hlast, hfirst⟩ := ih (top.physical e :: done) hgave.stands hlines
      refine ⟨o, ?_, ?_, hfirst⟩
      · rw [if_pos ((isHeader_iff e top).mpr hheader)]
        exact hrest
      · rw [hlast, List.takeWhile_cons, if_pos hheader, List.reverse_cons, List.append_assoc]
        rfl
    · rw [List.dropWhile_cons, if_neg hheader] at hlines
      cases hlines
      refine ⟨⟨done.reverse, l.physical e, s'⟩, ?_, ?_, rfl, hgave⟩
      · rw [if_neg fun hl => hheader ((isHeader_iff e l).mp hl)]
      · rw [List.takeWhile_cons, if_neg hheader, List.map_nil, List.append_nil]

/-- A source that is all header is no dictionary. -/
theorem Opening.read_of_headers {e : Encoding} {done : List PhysicalLine}
    {lines : List PlacedStretch} {total : Nat} {ending : Option LineEnding} {s : LineStream}
    (h : s.Stands e lines total ending) (hlines : ∀ l ∈ lines, l.isHeader e = true) :
    Opening.read e done s = .error (.unusable .noArticles) := by
  induction lines generalizing done s with
  | nil =>
    obtain ⟨s', hread, -⟩ := h.readLine_nil
    rw [Opening.read, hread]
  | cons top lines ih =>
    obtain ⟨s', hread, hgave⟩ := h.readLine_cons
    have hheader := (isHeader_iff e top).mpr (hlines top List.mem_cons_self)
    rw [Opening.read, hread]
    simp only
    rw [if_pos hheader]
    exact ih hgave.stands fun l hl => hlines l (List.mem_cons_of_mem top hl)

/-- The text of a line, or the failure to decode it. -/
def PlacedStretch.text (e : Encoding) (l : PlacedStretch) : Except Failure Text :=
  match e.decode? (l.content e) with
  | some t => .ok t
  | none => .error (.undecodable l.number e)

/-- The first line that cannot be decoded is reported by its number. -/
theorem Opening.decodeLines_eq {e : Encoding} (done : List Text) (offset number : Nat)
    (ls : List Stretch) :
    Opening.decodeLines e done number ((place e offset number ls).map (·.physical e)) =
      ((place e offset number ls).mapM (PlacedStretch.text e)).map (done.reverse ++ ·) := by
  induction ls generalizing done offset number with
  | nil =>
    show Except.ok done.reverse = Except.ok (done.reverse ++ [])
    rw [List.append_nil]
  | cons l rest ih =>
    rw [place, List.map_cons, decodeLines, List.mapM_cons]
    show (match e.decode? (l.content e) with
      | some t => decodeLines e (t :: done) (number + 1) _
      | none => .error (.undecodable number e)) = _
    cases htext : e.decode? (l.content e) with
    | none =>
      have herror : PlacedStretch.text e ⟨l, offset, number⟩ = .error (.undecodable number e) := by
        rw [PlacedStretch.text, htext]
      rw [herror]
      rfl
    | some t =>
      have hok : PlacedStretch.text e ⟨l, offset, number⟩ = .ok t := by
        rw [PlacedStretch.text, htext]
      simp only
      rw [hok, ih]
      cases (place e (offset + l.span e) (number + 1) rest).mapM (PlacedStretch.text e) with
      | error failure => rfl
      | ok texts =>
        show Except.ok ((t :: done).reverse ++ texts) = Except.ok (done.reverse ++ t :: texts)
        rw [List.reverse_cons, List.append_assoc]
        rfl

private theorem takeWhile_place (e : Encoding) (offset number : Nat) (ls : List Stretch) :
    (place e offset number ls).takeWhile (·.isHeader e) =
      place e offset number (ls.takeWhile (·.isHeader e)) := by
  induction ls generalizing offset number with
  | nil => rfl
  | cons l rest ih =>
    rw [place, List.takeWhile_cons, List.takeWhile_cons]
    by_cases hheader : l.isHeader e = true
    · rw [if_pos hheader, if_pos hheader, place, ih]
    · rw [if_neg hheader, if_neg hheader, place]

/-- The header is decoded line by line. -/
theorem Opening.decodeLines_headerLines (e : Encoding) (bytes : List UInt8) :
    Opening.decodeLines e [] 1 ((headerLines e bytes).map (·.physical e)) =
      (headerLines e bytes).mapM (PlacedStretch.text e) := by
  rw [headerLines, linesOf, takeWhile_place, decodeLines_eq]
  cases (place e (markLength bytes) 1 _).mapM (PlacedStretch.text e) with
  | error failure => rfl
  | ok texts => rfl

/-! ## Steps of opening -/

namespace Dictionary

theorem bind_eq_ok {ε α β : Type} {x : Except ε α} {f : α → Except ε β} {b : β}
    (h : x >>= f = .ok b) : ∃ a, x = .ok a ∧ f a = .ok b := by
  cases x with
  | error err => cases h
  | ok a => exact ⟨a, rfl, h⟩

theorem mapError_eq_ok {ε ε' α : Type} {x : Except ε α} {f : ε → ε'} {a : α}
    (h : x.mapError f = .ok a) : x = .ok a := by
  cases x with
  | error err => cases h
  | ok b => cases h; rfl

/-- What is left to do when the byte-order mark has been looked at. -/
theorem ofSource_of_mark {label : Option Text} {source : Source} {stream stream' : Stream}
    {buffered : List UInt8} {found : Preamble} (hstream : Stream.ofSource source = .ok stream)
    (hfill : stream.fill 4 [] = .ok (buffered, stream'))
    (hfound : Preamble.ofBytes buffered = .ok found) :
    ofSource label source = (do
      let opening ← Opening.read (found.override label).encoding []
        ⟨buffered.drop found.markLength, stream', found.markLength, 0, 0, none⟩
      let encoding ← (found.override label).settle
        (opening.codePageName? (found.override label).encoding)
      let lines ← Opening.decodeLines encoding [] 1 opening.header
      return ⟨encoding, Header.ofLines lines, opening.stream, some opening.first, false, none,
        false⟩) := by
  rw [ofSource, hstream]
  show ofStream label stream = _
  rw [ofStream, hfill]
  show (Preamble.ofBytes buffered).mapError Failure.unusable >>= _ = _
  rw [hfound]
  rfl

theorem ofSource_of_defect {label : Option Text} {source : Source} {stream stream' : Stream}
    {buffered : List UInt8} {defect : Defect} (hstream : Stream.ofSource source = .ok stream)
    (hfill : stream.fill 4 [] = .ok (buffered, stream'))
    (hdefect : Preamble.ofBytes buffered = .error defect) :
    ofSource label source = .error (.unusable defect) := by
  rw [ofSource, hstream]
  show ofStream label stream = _
  rw [ofStream, hfill]
  show (Preamble.ofBytes buffered).mapError Failure.unusable >>= _ = _
  rw [hdefect]
  rfl

/-- When a dictionary has been opened nothing is remembered about comments. -/
theorem fresh_of_ofSource {label : Option Text} {source : Source} {d : Dictionary}
    (h : ofSource label source = .ok d) :
    d.commentOpen = false ∧ d.joined = none ∧ d.ended = false := by
  obtain ⟨stream, -, h⟩ := bind_eq_ok h
  obtain ⟨⟨buffered, stream'⟩, -, h⟩ := bind_eq_ok h
  obtain ⟨found, -, h⟩ := bind_eq_ok h
  obtain ⟨opening, -, h⟩ := bind_eq_ok h
  obtain ⟨encoding, -, h⟩ := bind_eq_ok h
  obtain ⟨lines, -, h⟩ := bind_eq_ok h
  cases h
  exact ⟨rfl, rfl, rfl⟩

end Dictionary

end Lexicon
