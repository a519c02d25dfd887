import Lexicon.Proofs.Dictionary.DeliveredLines
import Lexicon.Proofs.Dictionary.EndOfSource
import Lexicon.Proofs.Encoding.Spelled

/-!
# Offsets and character counts

Where all lines end alike, the offset of a line follows from that of the line before it and from the
number of its characters, as long as each of them takes up one code unit. It does not matter how the
bytes arrive, whether other reads have failed, nor what has been read before the two lines.

## Key results

- `Dictionary.Amid`: what holds of a dictionary between two reads
- `Dictionary.Amid.advance`, `Dictionary.Amid.outcomes`: it holds behind every read
- `Dictionary.Amid.gaveLast`, `Dictionary.offset_of_advance`: where lines start and end
- `Dictionary.offset_of_successor`: the offset of the next line
-/

namespace Lexicon

namespace Dictionary

/-- What holds of a dictionary between two reads of a source: the terminator of the first line stays
the same, and is unknown only if there was but one line. -/
structure Amid (source : Source) (e : Encoding) (ending : Option LineEnding) (d : Dictionary) :
    Prop where
  encoding : d.encoding = e
  stream : d.stream.Amid source e
  lineEnding : d.stream.lineEnding = ending
  started : ending = none → d.stream.Ended
  first : ∀ raw, d.firstLine = some raw → d.stream.GaveLast source e raw

section Steps

variable {source : Source} {e : Encoding} {ending : Option LineEnding} {d d' : Dictionary}
  {headwordsOnly : Bool} {r : LineResult}

theorem amid_ofSource {label : Option Text} (h : ofSource label source = .ok d) :
    d.Amid source d.encoding d.stream.lineEnding := by
  obtain ⟨stream, hstream, h⟩ := bind_eq_ok h
  obtain ⟨⟨buffered, stream'⟩, hfill, h⟩ := bind_eq_ok h
  obtain ⟨found, hfound, h⟩ := bind_eq_ok h
  obtain ⟨opening, hopening, h⟩ := bind_eq_ok h
  obtain ⟨encoding, hsettle, h⟩ := bind_eq_ok h
  obtain ⟨lines, hlines, h⟩ := bind_eq_ok h
  have hfound' := mapError_eq_ok hfound
  have hne : buffered ≠ [] := by
    rintro rfl
    cases hfound'
  have hmark : ¬ MarkTruncated buffered := by
    intro htruncated
    rw [Preamble.ofBytes_truncated htruncated] at hfound'
    cases hfound'
  have hworking : (found.override label).encoding = workingEncoding label buffered := by
    rw [Preamble.override_eq hne hmark hfound']
  rw [Preamble.settle_override hne hmark hfound'] at hsettle
  have hstart := @LineStream.took_start source (found.override label).encoding _ _ _ _
    (mapError_eq_ok hstream) (mapError_eq_ok hfill) hfound'
  have hgave := Opening.gaveLast_of_read (.inr ⟨[], hstart⟩) hopening
  rw [hworking] at hgave
  have hfirst := hgave.of_finalEncoding hsettle
  cases h
  refine ⟨rfl, ?_, rfl, fun hnone => ?_, ?_⟩
  · exact hfirst.imp_right fun ⟨lines, l, htook, _⟩ => ⟨_, htook⟩
  · refine hfirst.resolve_right fun ⟨lines, l, htook, _⟩ => ?_
    exact htook.lineEnding_ne_none (List.mem_append_right _ List.mem_cons_self) hnone
  · rintro raw ⟨⟩
    exact hfirst

theorem Amid.advance (h : d.Amid source e ending) (hstep : d.advance headwordsOnly = (r, d')) :
    d'.Amid source e ending ∧ d'.firstLine = none := by
  -- The first line was read when the source was opened, and the stream stays where it is
  cases hfirst : d.firstLine with
  | some raw =>
    rw [advance_of_firstLine hfirst] at hstep
    obtain ⟨-, rfl⟩ := Prod.mk.inj hstep
    exact ⟨⟨h.encoding, h.stream, h.lineEnding, h.started, nofun⟩, rfl⟩
  | none =>
    rcases hread : d.stream.readLine d.encoding with ⟨result, s⟩
    have hd' : d' = { d with stream := s } := by
      rw [advance_of_readLine hfirst, hread] at hstep
      rcases result with fault | _ | raw
      all_goals
        cases hstep
        rfl
    subst hd'
    rw [h.encoding] at hread
    refine ⟨⟨h.encoding, (h.stream.readLine hread).1, ?_, fun hnone => ?_, fun raw hraw => ?_⟩,
      hfirst⟩
    · cases hending : ending with
      | none => rw [((h.started hending).readLine hread).2.2, h.lineEnding, hending]
      | some ending => exact LineStream.lineEnding_of_readLine (h.lineEnding.trans hending) hread
    · exact ((h.started hnone).readLine hread).2.1
    · cases hfirst.symm.trans hraw

theorem Amid.outcomes (h : d.Amid source e ending) (uses : List Use) :
    (d.outcomes uses).2.Amid source e ending :=
  outcomes_keeps (read_keeps
    (fun _ _ _ h => ⟨h.encoding, h.stream, h.lineEnding, h.started, h.first⟩)
    fun h hstep => (h.advance hstep).1) h uses

theorem of_decodeLine {raw : PhysicalLine} {line : Line}
    (h : d.decodeLine false raw = .ok (some line)) :
    d.encoding.decode? raw.bytes = some line.text ∧ line.offset = raw.offset := by
  unfold decodeLine at h
  extract_lets bytes at h
  split at h
  · rename_i text htext
    cases h
    exact ⟨htext, rfl⟩
  · cases h

/-- The stream stands behind the line that has been given last. -/
theorem Amid.gaveLast {line : Line} (h : d.Amid source e ending)
    (hstep : d.advance false = (.ok (some line), d')) :
    ∃ raw, d'.stream.GaveLast source e raw ∧ e.decode? raw.bytes = some line.text ∧
      line.offset = raw.offset := by
  cases hfirst : d.firstLine with
  | some raw =>
    rw [advance_of_firstLine hfirst] at hstep
    obtain ⟨hline, rfl⟩ := Prod.mk.inj hstep
    refine ⟨raw, h.first raw hfirst, ?_⟩
    rw [← h.encoding]
    exact of_decodeLine hline
  | none =>
    rw [advance_of_readLine hfirst] at hstep
    split at hstep
    · cases hstep
    · cases hstep
    · rename_i raw s hread
      obtain ⟨hline, rfl⟩ := Prod.mk.inj hstep
      have hdecoded := of_decodeLine hline
      rw [h.encoding] at hread
      refine ⟨raw, (h.stream.readLine hread).2 raw rfl, ?_⟩
      rw [← h.encoding]
      exact hdecoded

/-- A line that is not the first one starts where the stream stands. -/
theorem offset_of_advance {line : Line} (hfirst : d.firstLine = none)
    (hstep : d.advance false = (.ok (some line), d')) :
    line.offset = d.stream.offset ∧ ¬ d.stream.Ended := by
  rw [advance_of_readLine hfirst] at hstep
  split at hstep
  · cases hstep
  · cases hstep
  · rename_i raw s hread
    obtain ⟨hline, -⟩ := Prod.mk.inj hstep
    refine ⟨(of_decodeLine hline).2.trans (LineStream.offset_of_readLine hread), fun hended => ?_⟩
    cases (hended.readLine hread).1

end Steps

/-- The hypothesis of `offset_of_successor` for an uncompressed source. -/
theorem endsAlike_of_delivers {source : Source} {e : Encoding}
    (hplain : ¬ Gzip.MemberHeader.magic <+: source.bytes) (h : EndsAlike e source.bytes) :
    ∀ bytes rest, source.Delivers bytes rest → EndsAlike e bytes :=
  fun _ _ hdelivers => h.of_isPrefix (hdelivers.isPrefix hplain)

/-- In a source of which all lines end alike, however they are delivered, the offset of a line follows
from that of the line read just before it: the characters of that line count as one code unit each,
and its terminator as the one that the dictionary knows, whenever it is asked. -/
theorem offset_of_successor {label : Option Text} {source : Source} {d between behind : Dictionary}
    {uses : List Use} {first second : Line} (h : ofSource label source = .ok d)
    (hends : ∀ bytes rest, source.Delivers bytes rest → EndsAlike d.encoding bytes)
    (hfirst : (d.outcomes uses).2.next false = (.ok (some first), between))
    (hsecond : between.next false = (.ok (some second), behind))
    (hone : ∀ c ∈ first.text, d.encoding.OneUnit c) (more : List Use) :
    let now := (d.outcomes more).2
    second.offset = first.offset + now.bytesOf first.text.length +
      now.lineEnding.byteLength now.encoding := by
  intro now
  have hd := amid_ofSource h
  have hadvance := advance_of_next hfirst nofun nofun
  obtain ⟨hbetween, hnone⟩ := (hd.outcomes uses).advance hadvance
  obtain ⟨raw, hgave, htext, hoffset⟩ := (hd.outcomes uses).gaveLast hadvance
  obtain ⟨hstart, hrunning⟩ := offset_of_advance hnone (advance_of_next hsecond nofun nofun)
  obtain ⟨lines, l, htook, hbytes, hspan⟩ := hgave.resolve_left hrunning
  -- The line ends like all others, and that is what the dictionary knows at any time
  have hl : l ∈ lines ++ [l] := List.mem_append_right _ List.mem_cons_self
  obtain ⟨ending, hending⟩ := Stretch.exists_ending (e := d.encoding) (htook.terminated l hl)
  have hknown : d.stream.lineEnding = some ending := by
    rw [← hbetween.lineEnding, ← htook.ending?_eq hends hl, hending]
  have hnow := hd.outcomes more
  have hnowEnding : now.lineEnding = ending := by
    rw [lineEnding, hnow.lineEnding, hknown]
    rfl
  have hlength := Encoding.length_of_decode? htext hone
  rw [hnowEnding, bytesOf, hnow.encoding, hstart, hspan, Stretch.span_eq hending, ← hbytes, hlength,
    hoffset, Nat.add_assoc]

/-- UTF-16 with a header, of which reads end inside units and inside a terminator, and one fails. -/
private def splitUnits : Source :=
  [.bytes [0xFF, 0xFE, 0x23], .interrupted, .bytes [0, 0x0D, 0, 0x0A, 0, 0x34],
    .bytes [0x04, 0x0D, 0, 0x0A, 0], .failed .source, .bytes [0x62, 0, 0x63, 0, 0x0D, 0, 0x0A],
    .bytes [0, 0x64, 0]]

/-- Two lines behind a read that has failed. -/
theorem offset_of_successor_splitUnits :
    ∃ d between behind, ofSource none splitUnits = .ok d ∧
      (∀ bytes rest, splitUnits.Delivers bytes rest → EndsAlike d.encoding bytes) ∧
      (d.outcomes (physicalReads [false, false])).2.next false =
        (.ok (some ⟨"bc".toList, 14⟩), between) ∧
      between.next false = (.ok (some ⟨"d".toList, 22⟩), behind) ∧
      (∀ c ∈ "bc".toList, d.encoding.OneUnit c) ∧
      22 = 14 + d.bytesOf "bc".toList.length + d.lineEnding.byteLength d.encoding := by
  have hplain : ¬ Gzip.MemberHeader.magic <+: splitUnits.bytes := by decide
  have halike : EndsAlike (.utf16 .little) splitUnits.bytes := by decide
  have hseen : (ofSource none splitUnits).map (fun d =>
      let before := (d.outcomes (physicalReads [false, false])).2
      (d.encoding, (before.next false).1, ((before.next false).2.next false).1)) =
      .ok (.utf16 .little, .ok (some ⟨"bc".toList, 14⟩), .ok (some ⟨"d".toList, 22⟩)) := by
    decide +kernel
  cases hd : ofSource none splitUnits with
  | error failure => rw [hd] at hseen; cases hseen
  | ok d =>
    rw [hd] at hseen
    obtain ⟨hencoding, hlines⟩ := Prod.mk.inj (Except.ok.inj hseen)
    obtain ⟨hfirst, hsecond⟩ := Prod.mk.inj hlines
    rcases hread : (d.outcomes (physicalReads [false, false])).2.next false with ⟨r, between⟩
    rw [hread] at hfirst hsecond
    rcases hread' : between.next false with ⟨r', behind⟩
    rw [hread'] at hsecond
    obtain rfl : r = _ := hfirst
    obtain rfl : r' = _ := hsecond
    have hends : ∀ bytes rest, splitUnits.Delivers bytes rest → EndsAlike d.encoding bytes := by
      rw [hencoding]
      exact endsAlike_of_delivers hplain halike
    have hone : ∀ c ∈ "bc".toList, d.encoding.OneUnit c := by
      rw [hencoding]
      exact List.forall_mem_cons.mpr ⟨by decide, List.forall_mem_singleton.mpr (by decide)⟩
    exact ⟨d, between, behind, rfl, hends, hread, hread', hone,
      offset_of_successor hd hends hread hread' hone []⟩

end Dictionary

end Lexicon
