import Lexicon.Proofs.Dictionary.Opening
import Lexicon.Proofs.Source.Delivered

/-!
# Lines of delivered bytes

The lines that a line stream gives are the first lines of the bytes that its source has delivered.
What the source will still do is not known, but it does not matter: a line that has been given, with
its terminator, stays what it is when more bytes arrive. So what holds of all terminators of a source
holds of those of the lines that have been given.

## Key results

- `EndsAlike`, `EndsAlike.of_isPrefix`: bytes of which all lines end alike
- `LineStream.Took`: the lines that a line stream has given
- `LineStream.Took.readLine`: one more line, a failure, or the end
- `LineStream.took_start`, `Opening.gaveLast_of_read`: the start of a source and its header
-/

namespace Lexicon

/-! ## Lines that end alike -/

/-- All line terminators in some bytes are of the style of the first one. -/
def EndsAlike (e : Encoding) (bytes : List UInt8) : Prop :=
  ∀ l ∈ linesOf e bytes, l.terminated = true → l.ending? e = firstEnding? e bytes

instance (e : Encoding) (bytes : List UInt8) : Decidable (EndsAlike e bytes) :=
  inferInstanceAs (Decidable (∀ l ∈ linesOf e bytes, _ → _))

/-- The lines of a source, without their places. -/
def stretchesOf (e : Encoding) (bytes : List UInt8) : List Stretch :=
  stretches e (bytes.drop (markLength bytes))

theorem stretchesOf_singleByte (page : CodePage) :
    stretchesOf (.singleByte page) = stretchesOf .utf8 := by
  funext bytes
  rw [stretchesOf, stretches_singleByte]
  rfl

theorem map_toStretch_place (e : Encoding) (offset number : Nat) (ls : List Stretch) :
    (place e offset number ls).map (·.toStretch) = ls := by
  induction ls generalizing offset number with
  | nil => rfl
  | cons l rest ih => rw [place, List.map_cons, ih]

theorem endsAlike_iff {e : Encoding} {bytes : List UInt8} :
    EndsAlike e bytes ↔ ∀ l ∈ stretchesOf e bytes, l.terminated = true →
      l.ending? e = (stretchesOf e bytes).findSome? (·.ending? e) := by
  have hfirst : firstEnding? e bytes = (stretchesOf e bytes).findSome? (·.ending? e) :=
    findSome?_place e _ _ _ _
  have hlines : (linesOf e bytes).map (·.toStretch) = stretchesOf e bytes :=
    map_toStretch_place e _ _ _
  rw [← hfirst, ← hlines, List.forall_mem_map]
  rfl

/-- The first terminator is that of the first line, if that line has one. -/
theorem findSome?_ending_cons {e : Encoding} {l : Stretch} (h : l.terminated = true)
    (rest : List Stretch) : (l :: rest).findSome? (·.ending? e) = l.ending? e := by
  obtain ⟨ending, hending⟩ := Stretch.exists_ending (e := e) h
  rw [List.findSome?_cons, hending]

/-! ## Lines that have been delivered -/

/-- Bytes are lines with their line feeds and then bytes without one, and more bytes only change what
is behind these lines. -/
theorem exists_stretches_append (e : Encoding) (bytes : List UInt8) :
    ∃ (lines : List Stretch) (tail : List UInt8), (∀ l ∈ lines, l.terminated = true) ∧
      (∀ l ∈ stretches e tail, l.terminated = false) ∧
      ∀ more, stretches e (bytes ++ more) = lines ++ stretches e (tail ++ more) := by
  -- On the number of bytes, since those behind the first line feed are fewer
  induction hn : bytes.length using Nat.strongRecOn generalizing bytes with
  | _ n ih =>
    cases hfind : e.indexOfUnit? Encoding.lineFeedUnit bytes with
    | none =>
      refine ⟨[], bytes, nofun, ?_, fun _ => rfl⟩
      rw [stretches_eq, hfind]
      simp only
      split
      · exact nofun
      · exact fun l hl => by rw [List.mem_singleton.mp hl]
    | some i =>
      have hle := Encoding.indexOfUnit_le hfind
      have hpos := e.unitWidth_pos
      obtain ⟨lines, tail, hlines, htail, hmore⟩ :=
        ih (bytes.drop (i + e.unitWidth)).length (by rw [List.length_drop]; omega) _ rfl
      refine ⟨⟨bytes.take i, true⟩ :: lines, tail, ?_, htail, fun more => ?_⟩
      · exact List.forall_mem_cons.mpr ⟨rfl, hlines⟩
      · rw [stretches_append_of_some hfind, hmore]
        rfl

/-- More bytes can only make a mark of bytes that are the start of one. -/
theorem markLength_append_cases (a b : List UInt8) :
    markLength (a ++ b) = markLength a ∨ a ∈ [[], [0xFF], [0xFE], [0xEF], [0xEF, 0xBB]] := by
  match a with
  | [] => exact .inr (by decide)
  | [x] =>
    by_cases hx : x = 0xFF ∨ x = 0xFE ∨ x = 0xEF
    · right
      rcases hx with rfl | rfl | rfl <;> decide
    · left
      simp only [markLength, List.cons_append, List.nil_append, List.cons_prefix_cons]
      grind
  | [x, y] =>
    by_cases hxy : x = 0xEF ∧ y = 0xBB
    · right
      obtain ⟨rfl, rfl⟩ := hxy
      decide
    · left
      simp only [markLength, List.cons_append, List.nil_append, List.cons_prefix_cons]
      grind
  | x :: y :: z :: rest =>
    left
    simp only [markLength, List.cons_append, List.cons_prefix_cons]
    grind

/-- Where all lines of some bytes end alike, so do those of their first bytes. -/
theorem EndsAlike.of_isPrefix {e : Encoding} {bytes all : List UInt8} (h : EndsAlike e all)
    (hpre : bytes <+: all) : EndsAlike e bytes := by
  obtain ⟨more, rfl⟩ := hpre
  rw [endsAlike_iff] at h ⊢
  rcases markLength_append_cases bytes more with hmark | hshort
  · have hdrop : stretchesOf e (bytes ++ more) =
        stretches e (bytes.drop (markLength bytes) ++ more) := by
      rw [stretchesOf, hmark, List.drop_append_of_le_length (markLength_le bytes)]
    obtain ⟨lines, tail, hlines, htail, hmore⟩ :=
      exists_stretches_append e (bytes.drop (markLength bytes))
    have hbytes : stretchesOf e bytes = lines ++ stretches e tail := by
      have := hmore []
      rwa [List.append_nil, List.append_nil] at this
    rw [hdrop, hmore] at h
    rw [hbytes]
    intro l hl hterminated
    have hline : l ∈ lines := by
      refine (List.mem_append.mp hl).resolve_right fun hlast => ?_
      rw [htail l hlast] at hterminated
      cases hterminated
    -- Both have the same first line
    cases lines with
    | nil => cases hline
    | cons first lines =>
      have hfirst := hlines first List.mem_cons_self
      have hall := h l (List.mem_append_left _ hline) hterminated
      rw [List.cons_append, findSome?_ending_cons hfirst] at hall ⊢
      exact hall
  · -- There is no line feed in the start of a mark
    have hnone : ∀ l ∈ stretchesOf e bytes, l.terminated = false := by
      have hstart : ∀ bytes ∈ [[], [0xFF], [0xFE], [0xEF], [0xEF, 0xBB]],
          ∀ l ∈ stretchesOf e bytes, l.terminated = false := by
        rcases e with page | _ | _ | _
        · rw [stretchesOf_singleByte]
          decide
        · decide
        · decide
        · decide
      exact hstart bytes hshort
    intro l hl hterminated
    rw [hnone l hl] at hterminated
    cases hterminated

/-! ## Lines that have been given -/

namespace LineStream

/-- The stream has given `lines`, each with its terminator. They are the first lines of the bytes that
the source has delivered, and will be whatever it delivers next. -/
structure Took (source : Source) (e : Encoding) (lines : List Stretch) (s : LineStream) : Prop where
  arrived : ∃ bytes, source.Delivers bytes s.stream ∧ ∀ more rest, s.stream.Delivers more rest →
    stretchesOf e (bytes ++ more) = lines ++ stretches e (s.buffered ++ more)
  terminated : ∀ l ∈ lines, l.terminated = true
  lineEnding : s.lineEnding = lines.findSome? (·.ending? e)

/-- The stream has given `line` last, and stands behind its terminator, unless it has ended. -/
def GaveLast (source : Source) (e : Encoding) (line : PhysicalLine) (s : LineStream) : Prop :=
  s.Ended ∨ ∃ lines l, s.Took source e (lines ++ [l]) ∧ line.bytes = l.content e ∧
    s.offset = line.offset + l.span e

variable {source : Source} {e : Encoding} {lines : List Stretch} {s s' : LineStream}
  {r : Except ReadFault (Option PhysicalLine)}

/-- The terminator of the first line is known as soon as there is one. -/
theorem Took.lineEnding_ne_none {l : Stretch} (h : s.Took source e lines) (hl : l ∈ lines) :
    s.lineEnding ≠ none := by
  obtain ⟨ending, hending⟩ := Stretch.exists_ending (e := e) (h.terminated l hl)
  rw [h.lineEnding]
  intro hnone
  rw [List.findSome?_eq_none_iff.mp hnone l hl] at hending
  cases hending

/-- Where all lines end alike, each line that has been given ends like the first one. -/
theorem Took.ending?_eq {l : Stretch}
    (hends : ∀ bytes rest, source.Delivers bytes rest → EndsAlike e bytes)
    (h : s.Took source e lines) (hl : l ∈ lines) : l.ending? e = s.lineEnding := by
  obtain ⟨bytes, hbytes, harrived⟩ := h.arrived
  have hlines := harrived [] _ (.nothing _)
  rw [List.append_nil, List.append_nil] at hlines
  have halike := endsAlike_iff.mp (hends bytes _ hbytes) l
    (by rw [hlines]; exact List.mem_append_left _ hl) (h.terminated l hl)
  cases lines with
  | nil => cases hl
  | cons first lines =>
    have hfirst := h.terminated first List.mem_cons_self
    rw [halike, hlines, h.lineEnding, List.cons_append, findSome?_ending_cons hfirst,
      findSome?_ending_cons hfirst]

/-- Bytes that are delivered go behind those that wait in the buffer. -/
theorem Took.deliver (h : s.Took source e lines) {chunk : List UInt8} {rest : Stream}
    (hchunk : s.stream.Delivers chunk rest) :
    ∃ bytes, source.Delivers bytes rest ∧ ∀ more final, rest.Delivers more final →
      stretchesOf e (bytes ++ more) = lines ++ stretches e (s.buffered ++ chunk ++ more) := by
  obtain ⟨bytes, ⟨start, hstart, hbytes⟩, harrived⟩ := h.arrived
  refine ⟨bytes ++ chunk, ⟨start, hstart, hbytes.trans hchunk⟩, fun more final hmore => ?_⟩
  rw [List.append_assoc, harrived _ _ (hchunk.trans hmore), List.append_assoc]

/-- One more line is given, or the stream fails and stays where it is, or it ends. -/
theorem Took.readLine (h : s.Took source e lines) (hread : s.readLine e = (r, s')) :
    s'.Ended ∨ (∃ fault, r = .error fault ∧ s'.Took source e lines) ∨
      ∃ l, r = .ok (some ⟨l.content e, s.offset⟩) ∧ s'.Took source e (lines ++ [l]) ∧
        s'.offset = s.offset + l.span e := by
  have hfollows := follows_fetch e false s.buffered s.stream
  rw [LineStream.readLine] at hread
  generalize fetch e false 0 [] s.buffered s.stream = f at hread hfollows
  cases hfollows with
  | @line chunk rest i refilled hchunk hi =>
    obtain ⟨bytes, hbytes, hmore⟩ := h.deliver hchunk
    have hterminator := terminatorOf_eq e ((s.buffered ++ chunk).take i)
    right
    right
    obtain ⟨rfl, rfl⟩ := Prod.mk.inj hread
    refine ⟨⟨(s.buffered ++ chunk).take i, true⟩, by rw [← content_eq],
      ⟨⟨bytes, hbytes, fun more final hfinal => ?_⟩, ?_, ?_⟩, offset_consume _ _ _⟩
    · rw [hmore more final hfinal, stretches_append_of_some hi, List.append_assoc]
      rfl
    · exact List.forall_mem_append.mpr ⟨h.terminated, List.forall_mem_singleton.mpr rfl⟩
    · rw [List.findSome?_append, ← h.lineEnding, List.findSome?_cons, ← hterminator]
  | @failed chunk rest fault hchunk =>
    right
    left
    obtain ⟨rfl, rfl⟩ := Prod.mk.inj hread
    exact ⟨fault, rfl, h.deliver hchunk, h.terminated, h.lineEnding⟩
  | ended all =>
    left
    -- The stream is used up, whether or not there is a last line without a terminator
    by_cases hnil : all = []
    · rw [receive, Fetch.atEnd, if_pos hnil] at hread
      obtain ⟨rfl, rfl⟩ := Prod.mk.inj hread
      exact ⟨rfl, rfl⟩
    · rw [receive, Fetch.atEnd, if_neg hnil] at hread
      obtain ⟨rfl, rfl⟩ := Prod.mk.inj hread
      exact ⟨rfl, rfl⟩

/-- At the end nothing more is given. -/
theorem Ended.readLine (h : s.Ended) (hread : s.readLine e = (r, s')) :
    r = .ok none ∧ s'.Ended ∧ s'.lineEnding = s.lineEnding := by
  obtain ⟨t, hnone, -, -, hending⟩ := (h.before e).readLine_nil
  rw [hread] at hnone
  obtain ⟨rfl, rfl⟩ := Prod.mk.inj hnone
  exact ⟨rfl, ended_of_readLine_none hread, hending⟩

/-- A line that is given starts where the stream stands. -/
theorem offset_of_readLine {line : PhysicalLine} (h : s.readLine e = (.ok (some line), s')) :
    line.offset = s.offset := by
  unfold LineStream.readLine receive at h
  split at h
  · cases h
    rfl
  · cases h
    rfl
  · cases h
  · cases h

/-- The terminator of the first line remains known. -/
theorem lineEnding_of_readLine {ending : LineEnding} (hending : s.lineEnding = some ending)
    (h : s.readLine e = (r, s')) : s'.lineEnding = some ending := by
  unfold LineStream.readLine receive at h
  split at h
  · cases h
    show s.lineEnding.or _ = _
    rw [hending, Option.some_or]
  all_goals
    cases h
    simp only [lineEnding_consume, hending]

/-- The stream has ended, or has given some lines, each with its terminator. -/
def Amid (source : Source) (e : Encoding) (s : LineStream) : Prop :=
  s.Ended ∨ ∃ lines, s.Took source e lines

/-- Reading goes on amid the source, and from one line to the next. -/
theorem Amid.readLine (h : s.Amid source e) (hread : s.readLine e = (r, s')) :
    s'.Amid source e ∧ ∀ line, r = .ok (some line) → s'.GaveLast source e line := by
  rcases h with hended | ⟨lines, htook⟩
  · obtain ⟨rfl, hended', -⟩ := hended.readLine hread
    exact ⟨.inl hended', nofun⟩
  · rcases htook.readLine hread with hended | ⟨fault, rfl, htook'⟩ | ⟨l, rfl, htook', hoffset⟩
    · exact ⟨.inl hended, fun _ _ => .inl hended⟩
    · exact ⟨.inr ⟨lines, htook'⟩, nofun⟩
    · refine ⟨.inr ⟨_, htook'⟩, fun line hline => .inr ⟨lines, l, htook', ?_⟩⟩
      cases hline
      exact ⟨rfl, hoffset⟩

end LineStream

/-! ## The first line -/

/-- Filling takes the bytes that the stream delivers, until there are enough or it ends. -/
theorem Stream.delivers_of_fill {n : Nat} {buffered bytes : List UInt8} {s s' : Stream}
    (h : s.fill n buffered = .ok (bytes, s')) :
    (∃ chunk, bytes = buffered ++ chunk ∧ s.Delivers chunk s') ∧
      (n ≤ bytes.length ∨ s' = .exhausted) := by
  fun_induction Stream.fill n buffered s with
  | case1 buffered s hle =>
    cases h
    exact ⟨⟨[], (List.append_nil _).symm, .nothing _⟩, .inl hle⟩
  | case2 => cases h
  | case3 buffered s hlt rest hr =>
    cases h
    exact ⟨⟨[], (List.append_nil _).symm, .ended hr (.nothing _)⟩, .inr rfl⟩
  | case4 buffered s hlt b chunk rest hr ih =>
    obtain ⟨⟨more, hbytes, hmore⟩, hend⟩ := ih h
    exact ⟨⟨b :: chunk ++ more, by rw [hbytes, List.append_assoc], .chunk hr hmore⟩, hend⟩

/-- When the mark has been skipped no line has been given. -/
theorem LineStream.took_start {source : Source} {e : Encoding} {start stream : Stream}
    {buffered : List UInt8} {found : Preamble} (hstart : Stream.ofSource source = .ok start)
    (hfill : start.fill 4 [] = .ok (buffered, stream))
    (hfound : Preamble.ofBytes buffered = .ok found) :
    LineStream.Took source e []
      ⟨buffered.drop found.markLength, stream, found.markLength, 0, 0, none⟩ := by
  obtain ⟨⟨chunk, hbytes, hdelivers⟩, henough⟩ := Stream.delivers_of_fill hfill
  rw [List.nil_append] at hbytes
  subst hbytes
  have hmark := Preamble.markLength_of_ofBytes hfound
  refine ⟨⟨buffered, ⟨start, hstart, hdelivers⟩, fun more rest hmore => ?_⟩, nofun, rfl⟩
  -- Four bytes are enough for a mark, and fewer than four are all bytes
  have hsame : markLength (buffered ++ more) = found.markLength := by
    rcases henough with hle | rfl
    · rw [← Preamble.ofBytes_append (by omega) more] at hfound
      exact (Preamble.markLength_of_ofBytes hfound).symm
    · rw [hmore.of_exhausted, List.append_nil, hmark]
  rw [stretchesOf, hsame, hmark, List.drop_append_of_le_length (markLength_le buffered)]
  rfl

/-- The header has been read up to the first line behind it. -/
theorem Opening.gaveLast_of_read {source : Source} {e : Encoding} {done : List PhysicalLine}
    {s : LineStream} {o : Opening} (hs : s.Amid source e) (h : Opening.read e done s = .ok o) :
    o.stream.GaveLast source e o.first := by
  fun_induction Opening.read e done s with
  | case1 => cases h
  | case2 => cases h
  | case3 done s line s' hr hheader ih => exact ih (hs.readLine hr).1 h
  | case4 done s line s' hr hheader =>
    cases h
    exact (hs.readLine hr).2 line rfl

theorem LineStream.Took.singleByte {source : Source} {page : CodePage} {lines : List Stretch}
    {s : LineStream} (h : s.Took source .utf8 lines) : s.Took source (.singleByte page) lines := by
  refine ⟨?_, h.terminated, h.lineEnding⟩
  rw [stretchesOf_singleByte, stretches_singleByte]
  exact h.arrived

/-- The header can only turn UTF-8 into a code page, where the lines are the same. -/
theorem LineStream.GaveLast.of_finalEncoding {source : Source} {label name : Option Text}
    {bytes : List UInt8} {e : Encoding} {line : PhysicalLine} {s : LineStream}
    (hfinal : finalEncoding label name bytes = .ok e)
    (h : s.GaveLast source (workingEncoding label bytes) line) : s.GaveLast source e line := by
  rcases finalEncoding_cases hfinal with rfl | ⟨hutf8, page, rfl⟩
  · exact h
  · rw [hutf8] at h
    refine h.imp_right fun ⟨lines, l, htook, hbytes, hoffset⟩ => ?_
    exact ⟨lines, l, htook.singleByte, hbytes, hoffset⟩

end Lexicon
