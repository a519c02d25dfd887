import Lexicon.Proofs.Dictionary.Opening

/-!
# What opening makes of a source

The outcome of opening depends on the bytes alone that the stream of a source carries. `outcome` says
it of bytes that are all there at once: first the mark is looked at, then there must be a line that is
no header line, then the encoding is settled, and at last the header is decoded.

## Key results

- `Dictionary.follows_ofSource`: opening does what `outcome` says, however the bytes arrive
- `Dictionary.opened_of_ofSource`: an open dictionary stands behind the first line after its header
-/

namespace Lexicon

/-- The name of the code page in the header of a source. -/
def codePageNameOf (e : Encoding) (bytes : List UInt8) : Option Text :=
  Header.codePageName? ((headerLines e bytes).map fun l => e.decodeLossy (l.content e))

private theorem codePageName?_eq {e : Encoding} {bytes : List UInt8} {o : Opening}
    (h : o.header = (headerLines e bytes).map (·.physical e)) :
    o.codePageName? e = codePageNameOf e bytes := by
  rw [Opening.codePageName?, h, List.map_map]
  rfl

/-- What opening makes of the bytes of a source: the encoding and the texts of the header lines, or
why there are none. -/
def outcome (label : Option Text) (bytes : List UInt8) : Except Failure (Encoding × List Text) :=
  if bytes = [] then .error (.unusable .empty)
  else if MarkTruncated bytes then .error (.unusable .truncatedMark)
  else
    let working := workingEncoding label bytes
    if ∀ l ∈ linesOf working bytes, l.isHeader working = true then .error (.unusable .noArticles)
    else do
      let e ← finalEncoding label (codePageNameOf working bytes) bytes
      let texts ← (headerLines e bytes).mapM (PlacedStretch.text e)
      return (e, texts)

namespace Dictionary

/-- What is left to do when there are some bytes, and no truncated mark. -/
theorem ofSource_of_bytes {label : Option Text} {source : Source} {stream stream' : Stream}
    {buffered bytes : List UInt8} (hstream : Stream.ofSource source = .ok stream)
    (hfill : stream.fill 4 [] = .ok (buffered, stream'))
    (hsame : Preamble.ofBytes buffered = Preamble.ofBytes bytes) (hne : bytes ≠ [])
    (hmark : ¬ MarkTruncated bytes) :
    ofSource label source = (do
      let opening ← Opening.read (workingEncoding label bytes) []
        ⟨buffered.drop (markLength bytes), stream', markLength bytes, 0, 0, none⟩
      let encoding ← finalEncoding label
        (opening.codePageName? (workingEncoding label bytes)) bytes
      let lines ← Opening.decodeLines encoding [] 1 opening.header
      return ⟨encoding, Header.ofLines lines, opening.stream, some opening.first, false, none,
        false⟩) := by
  have hfound := Preamble.ofBytes_eq hne hmark
  rw [ofSource_of_mark hstream hfill (hsame.trans hfound)]
  simp only [Preamble.settle_override hne hmark hfound]
  simp only [Preamble.override_eq hne hmark hfound]

/-- The dictionary stands behind the first line after the header of its bytes, which it has yet to
give. -/
structure Opened (bytes : List UInt8) (d : Dictionary) : Prop where
  ended : d.ended = false
  stands : ∃ l rest, articleLines d.encoding bytes = l :: rest ∧
    d.firstLine = some (l.physical d.encoding) ∧
    d.stream.Gave d.encoding l rest (linesOf d.encoding bytes).length
      (firstEnding? d.encoding bytes)

/-- The result of opening is what the outcome says. -/
def Follows (bytes : List UInt8) (outcome : Except Failure (Encoding × List Text))
    (result : Except Failure Dictionary) : Prop :=
  match outcome with
  | .error failure => result = .error failure
  | .ok (e, texts) =>
    ∃ d, result = .ok d ∧ d.encoding = e ∧ d.header = Header.ofLines texts ∧ d.Opened bytes

section Follows

variable {label : Option Text} {bytes : List UInt8} {working : Encoding}

/-- When the header has been read and the encoding is settled, the header is decoded. -/
private theorem follows_of_header {e : Encoding} {l : PlacedStretch} {rest : List PlacedStretch}
    {o : Opening} (hworking : workingEncoding label bytes = working)
    (hlines : articleLines working bytes = l :: rest)
    (hheader : o.header = (headerLines working bytes).map (·.physical working))
    (hfirst : o.first = l.physical working)
    (hgave : o.stream.Gave working l rest (linesOf working bytes).length
      (firstEnding? working bytes))
    (hfinal : finalEncoding label (codePageNameOf working bytes) bytes = .ok e) :
    Follows bytes
      (do
        let texts ← (headerLines e bytes).mapM (PlacedStretch.text e)
        return (e, texts))
      (do
        let lines ← Opening.decodeLines e [] 1 o.header
        return ⟨e, Header.ofLines lines, o.stream, some o.first, false, none, false⟩) := by
  -- In the final encoding the lines are the same
  have hsame := sameLines_of_finalEncoding hfinal
  rw [hworking] at hsame
  rw [← hsame.headerLines_eq, ← hsame.physical_eq] at hheader
  rw [hheader, Opening.decodeLines_headerLines]
  cases (headerLines e bytes).mapM (PlacedStretch.text e) with
  | error failure => rfl
  | ok texts =>
    refine ⟨_, rfl, rfl, rfl, rfl, l, rest, ?_, ?_, ?_⟩
    · exact (hsame.articleLines_eq bytes).trans hlines
    · rw [hfirst, ← hsame.physical_eq]
    · show o.stream.Gave e l rest (linesOf e bytes).length (firstEnding? e bytes)
      rw [hsame.linesOf_eq, hsame.firstEnding?_eq]
      exact ⟨hsame.stands hgave.stands, hgave.lineCount, hgave.lineEnding⟩

/-- Behind the mark the header is read. -/
private theorem follows_of_stands {s : LineStream} (hworking : workingEncoding label bytes = working)
    (hstart : s.Stands working (linesOf working bytes) (linesOf working bytes).length
      (firstEnding? working bytes)) :
    Follows bytes
      (if ∀ l ∈ linesOf working bytes, l.isHeader working = true then
        .error (.unusable .noArticles)
      else do
        let e ← finalEncoding label (codePageNameOf working bytes) bytes
        let texts ← (headerLines e bytes).mapM (PlacedStretch.text e)
        return (e, texts))
      (do
        let opening ← Opening.read working [] s
        let encoding ← finalEncoding label (opening.codePageName? working) bytes
        let lines ← Opening.decodeLines encoding [] 1 opening.header
        return ⟨encoding, Header.ofLines lines, opening.stream, some opening.first, false, none,
          false⟩) := by
  by_cases hheaders : ∀ l ∈ linesOf working bytes, l.isHeader working = true
  · rw [if_pos hheaders, Opening.read_of_headers hstart hheaders]
    rfl
  rw [if_neg hheaders]
  -- Some line is no header line, so the header ends before one
  cases hlines : articleLines working bytes with
  | nil => exact absurd (List.dropWhile_eq_nil_iff.mp hlines) hheaders
  | cons l rest =>
    obtain ⟨o, hread, hheader, hfirst, hgave⟩ := Opening.read_of_article [] hstart hlines
    rw [List.reverse_nil, List.nil_append] at hheader
    rw [hread]
    show Follows bytes (finalEncoding label (codePageNameOf working bytes) bytes >>= _)
      (finalEncoding label (o.codePageName? working) bytes >>= _)
    rw [codePageName?_eq hheader]
    cases hfinal : finalEncoding label (codePageNameOf working bytes) bytes with
    | error failure => rfl
    | ok e => exact follows_of_header hworking hlines hheader hfirst hgave hfinal

/-- Opening does what the outcome of the bytes says, however the bytes arrive. -/
theorem follows_ofSource {source : Source} {stream : Stream}
    (hstream : Stream.ofSource source = .ok stream) (hcarries : stream.Carries bytes) :
    Follows bytes (outcome label bytes) (ofSource label source) := by
  -- The first bytes are enough to tell the byte-order mark
  obtain ⟨buffered, stream', left, hfill, hleft, hsplit, hroom, henough⟩ :=
    hcarries.fill (show 4 ≤ Stream.bufferStep by decide) [] (Nat.zero_le _)
  rw [List.nil_append] at hsplit
  have hsame : Preamble.ofBytes buffered = Preamble.ofBytes bytes := by
    rw [hsplit]
    rcases henough with hlong | hnil
    · exact (Preamble.ofBytes_append (by omega) left).symm
    · rw [hnil, List.append_nil]
  unfold outcome
  by_cases hne : bytes = []
  · rw [if_pos hne]
    subst hne
    exact ofSource_of_defect hstream hfill (hsame.trans Preamble.ofBytes_nil)
  rw [if_neg hne]
  by_cases hmark : MarkTruncated bytes
  · rw [if_pos hmark]
    exact ofSource_of_defect hstream hfill (hsame.trans (Preamble.ofBytes_truncated hmark))
  rw [if_neg hmark, ofSource_of_bytes hstream hfill hsame hne hmark]
  have hle : markLength bytes ≤ buffered.length := by
    have hlength : markLength bytes = markLength buffered :=
      Preamble.markLength_of_ofBytes (hsame.trans (Preamble.ofBytes_eq hne hmark))
    rw [hlength]
    exact markLength_le buffered
  apply follows_of_stands rfl
  rw [hsplit] at hle ⊢
  exact LineStream.stands_start hleft hroom hle

end Follows

end Dictionary

end Lexicon
