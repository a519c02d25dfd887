import Lexicon.Dump
import Lexicon.Proofs.Dictionary.EndOfSource
import Mathlib.Data.List.Infix

/-!
# Limited dumps

A limit only cuts a dump. What a run gives falls into what comes before the first headword and the
articles, each of them a headword line and what follows up to the next one; `articlesOf` splits it.
The loop of a dump goes through these parts in order. Without a limit it shows all of them, with a
limit as many articles as are wanted, and no part of the next one.

## Key results

- `articlesAfter_eq`: what the loop prints, part by part
- `report_eq`: the whole dump of a dictionary
- `report_limit`: a limited dump beside one without a limit
-/

namespace Lexicon.Dump

/-! ## Streams -/

/-- What goes to the standard output. -/
def outputs (lines : List Printed) : List Text :=
  lines.filterMap fun
    | .output line => some line
    | .error _ => none

/-- What goes to the standard error. -/
def errors (lines : List Printed) : List Text :=
  lines.filterMap fun
    | .output _ => none
    | .error line => some line

theorem outputs_append (a b : List Printed) : outputs (a ++ b) = outputs a ++ outputs b :=
  List.filterMap_append

theorem outputs_output (lines : List Text) : outputs (lines.map .output) = lines := by
  simp [outputs, List.filterMap_map]

theorem outputs_flatMap {α : Type} (l : List α) (f : α → List Printed) :
    outputs (l.flatMap f) = l.flatMap fun a => outputs (f a) :=
  List.filterMap_flatMap

theorem errors_append (a b : List Printed) : errors (a ++ b) = errors a ++ errors b :=
  List.filterMap_append

theorem errors_output (lines : List Text) : errors (lines.map .output) = [] := by
  simp [errors, List.filterMap_map]

/-! ## Articles -/

/-- A headword line, and what comes behind it up to the next one. -/
structure Article where
  headword : Line
  rest : List (Except Failure Line)
  deriving DecidableEq, Repr

/-- Splits a run into what comes before the first headword line and the articles. -/
def articlesOf : List (Except Failure Line) → List (Except Failure Line) × List Article
  | [] => ([], [])
  | .error failure :: items => (.error failure :: (articlesOf items).1, (articlesOf items).2)
  | .ok line :: items =>
    if kindOf line.text = .headword then ([], ⟨line, (articlesOf items).1⟩ :: (articlesOf items).2)
    else (.ok line :: (articlesOf items).1, (articlesOf items).2)

/-- What is printed where no headword line is: the line of a body, if bodies are shown, or the notice
for a failure. -/
def printedItem (headwordsOnly : Bool) : Except Failure Line → List Printed
  | .error failure => [.error (skippedLine failure)]
  | .ok line =>
    if kindOf line.text = .body ∧ headwordsOnly = false then [.output (bodyLine line.text)] else []

/-- What is printed for an article. -/
def Article.printed (headwordsOnly : Bool) (a : Article) : List Printed :=
  (headwordLines a.headword).map .output ++ a.rest.flatMap (printedItem headwordsOnly)

/-- The articles that a limit lets through, some having been shown before. -/
def wanted (limit : Option Nat) (shown : Nat) (articles : List Article) : List Article :=
  match limit with
  | none => articles
  | some n => articles.take (n - shown)

theorem wanted_nil (limit : Option Nat) (shown : Nat) : wanted limit shown [] = [] := by
  cases limit with
  | none => rfl
  | some n => exact List.take_nil

variable {options : Options} {shown : Nat}

theorem wanted_of_limitReached (h : limitReached options shown = true) (articles : List Article) :
    wanted options.limit shown articles = [] := by
  unfold limitReached at h
  cases hlimit : options.limit with
  | none => simp [hlimit] at h
  | some n =>
    have hle : n ≤ shown := by simpa [hlimit] using h
    rw [wanted, Nat.sub_eq_zero_of_le hle, List.take_zero]

theorem wanted_cons (h : limitReached options shown = false) (a : Article)
    (articles : List Article) :
    wanted options.limit shown (a :: articles) =
      a :: wanted options.limit (shown + 1) articles := by
  unfold limitReached at h
  cases hlimit : options.limit with
  | none => rfl
  | some n =>
    have hlt : shown < n := by simpa [hlimit] using h
    have hleft : n - shown = n - (shown + 1) + 1 := by omega
    rw [wanted, hleft, List.take_succ_cons, wanted]

/-! ## The loop -/

/-- The loop prints what comes before the first headword, and then the articles that the limit lets
through. -/
theorem articlesAfter_eq (options : Options) {items : List (Except Failure Line)}
    (hitems : ∀ failure, .error failure ∈ items → ∃ n e, failure = .undecodable n e)
    (done : List Printed) (shown : Nat) :
    articlesAfter options done shown items =
      (done.reverse ++ ((articlesOf items).1.flatMap (printedItem options.headwordsOnly) ++
        (wanted options.limit shown (articlesOf items).2).flatMap
          (Article.printed options.headwordsOnly)),
        .ok (shown + (wanted options.limit shown (articlesOf items).2).length)) := by
  induction items generalizing done shown with
  | nil => simp [articlesAfter, articlesOf, wanted_nil]
  | cons item items ih =>
    have hrest := ih fun failure h => hitems failure (List.mem_cons_of_mem _ h)
    cases item with
    | error failure =>
      obtain ⟨n, e, rfl⟩ := hitems failure List.mem_cons_self
      rw [articlesAfter, hrest]
      simp [articlesOf, printedItem]
    | ok line =>
      rw [articlesAfter]
      cases hkind : kindOf line.text with
      | empty =>
        simp only [hrest]
        simp [articlesOf, printedItem, hkind]
      | body =>
        cases hshown : options.headwordsOnly with
        | false =>
          simp only [Bool.false_eq_true, if_false, hrest]
          simp [articlesOf, printedItem, hkind, hshown]
        | true =>
          simp only [if_true, hrest]
          simp [articlesOf, printedItem, hkind, hshown]
      | headword =>
        cases hlimit : limitReached options shown with
        | true =>
          -- The articles from here on are cut off
          simp [articlesOf, hkind, wanted_of_limitReached hlimit]
        | false =>
          simp only [Bool.false_eq_true, if_false, hrest]
          simp [articlesOf, hkind, wanted_cons hlimit, Article.printed]
          omega

/-! ## Whole dumps -/

/-- How the lines of a dictionary are read. -/
def Options.mode (options : Options) : ReadMode :=
  ⟨options.headwordsOnly, options.stripComments⟩

/-- What a dump says before any line behind the header. -/
def opening (path : String) (d : Dictionary) : List Text :=
  ["Reading DSL file: ".toList ++ path.toList, rule] ++ headerLines d

/-- What a dump prints that shows `articles`, and `front` before them. -/
def linesShowing (path : String) (d : Dictionary) (headwordsOnly : Bool)
    (front : List (Except Failure Line)) (articles : List Article) : List Printed :=
  (opening path d).map .output ++ front.flatMap (printedItem headwordsOnly) ++
    articles.flatMap (Article.printed headwordsOnly) ++ (summary articles.length).map .output

theorem outputs_linesShowing (path : String) (d : Dictionary) (headwordsOnly : Bool)
    (front : List (Except Failure Line)) (articles : List Article) :
    outputs (linesShowing path d headwordsOnly front articles) =
      opening path d ++ outputs (front.flatMap (printedItem headwordsOnly)) ++
        articles.flatMap (fun a => outputs (a.printed headwordsOnly)) ++
        summary articles.length := by
  simp only [linesShowing, outputs_append, outputs_output, outputs_flatMap]

theorem errors_linesShowing (path : String) (d : Dictionary) (headwordsOnly : Bool)
    (front : List (Except Failure Line)) (articles : List Article) :
    errors (linesShowing path d headwordsOnly front articles) =
      errors (front.flatMap (printedItem headwordsOnly)) ++
        errors (articles.flatMap (Article.printed headwordsOnly)) := by
  simp only [linesShowing, errors_append, errors_output, List.nil_append, List.append_nil]

section Reports

variable (options : Options) {source : Source} {d : Dictionary}

/-- The dump of a dictionary that opens and is read without failures of the source. -/
theorem report_eq (h : Dictionary.ofSource options.encoding source = .ok d)
    (hcalm : ∀ fault, .error (.unreadable fault) ∉ d.run options.mode) (path : String) :
    report options path (.ok source) =
      ⟨linesShowing path d options.headwordsOnly (articlesOf (d.run options.mode)).1
        (wanted options.limit 0 (articlesOf (d.run options.mode)).2), 0⟩ := by
  obtain ⟨-, -, hended⟩ := Dictionary.fresh_of_ofSource h
  have hloop := articlesAfter_eq options
    (fun failure => Dictionary.undecodable_of_mem_run hended hcalm) [] 0
  have hopened : (do
      let source ← (Except.ok source).mapError (Failure.cannotOpen path)
      Dictionary.ofSource options.encoding source) = .ok d := h
  have hlines : dictionaryLines options d =
      ((headerLines d).map .output ++ (articlesAfter options [] 0 (d.run options.mode)).1,
        (articlesAfter options [] 0 (d.run options.mode)).2) := rfl
  simp only [report, hopened, hlines, hloop]
  simp [linesShowing, opening]

/-- A limit only cuts a dump. If a source opens and does not fail, and the dump without a limit shows
some articles, then the dump with a limit of `n` shows the first `n` of them, or all if there are no
more: its standard output is the one without a limit, cut before what is printed for the next
article, and its standard error is a prefix of the one without a limit. -/
theorem report_limit (h : Dictionary.ofSource options.encoding source = .ok d)
    (hcalm : ∀ fault, .error (.unreadable fault) ∉ d.run options.mode) (path : String) (n : Nat) :
    let full := report { options with limit := none } path (.ok source)
    let cut := report { options with limit := some n } path (.ok source)
    let (front, articles) := articlesOf (d.run options.mode)
    let start := opening path d ++ outputs (front.flatMap (printedItem options.headwordsOnly))
    let block := fun a : Article => outputs (a.printed options.headwordsOnly)
    (full.exitCode = 0 ∧ cut.exitCode = 0) ∧
      outputs full.lines = start ++ articles.flatMap block ++ summary articles.length ∧
      outputs cut.lines =
        start ++ (articles.take n).flatMap block ++ summary (min n articles.length) ∧
      errors cut.lines <+: errors full.lines := by
  have hfull := report_eq { options with limit := none } h hcalm path
  have hcut := report_eq { options with limit := some n } h hcalm path
  have hmode (limit : Option Nat) : { options with limit := limit }.mode = options.mode := rfl
  simp only [hmode] at hfull hcut
  rcases hsplit : articlesOf (d.run options.mode) with ⟨front, articles⟩
  rw [hsplit] at hfull hcut
  rw [hfull, hcut]
  refine ⟨⟨rfl, rfl⟩, outputs_linesShowing .., ?_, ?_⟩
  · rw [outputs_linesShowing, ← List.length_take]
    rfl
  · rw [errors_linesShowing, errors_linesShowing, List.prefix_append_right_inj]
    exact ((List.take_prefix n articles).flatMap _).filterMap _

/-- A body line without a headword, an article with a line that cannot be decoded, and another
article. -/
private def twoArticles : Source :=
  [.bytes [0x09, 0x30, 0x0A, 0x61, 0x0A, 0x09, 0x31, 0x0A, 0xFF, 0x0A, 0x62, 0x0A]]

private def twoArticlesRun : List (Except Failure Line) :=
  [.ok ⟨['\t', '0'], 0⟩, .ok ⟨['a'], 3⟩, .ok ⟨['\t', '1'], 5⟩, .error (.undecodable 4 .utf8),
    .ok ⟨['b'], 10⟩]

theorem report_twoArticles :
    ∃ d, Dictionary.ofSource none twoArticles = .ok d ∧
      (∀ fault, .error (.unreadable fault) ∉ d.run ⟨false, false⟩) ∧
      outputs (report ⟨none, false, false, some 1⟩ "d" (.ok twoArticles)).lines =
        opening "d" d ++ ["    0".toList, [], "[0x3] a".toList, "    1".toList] ++ summary 1 ∧
      errors (report ⟨none, false, false, some 1⟩ "d" (.ok twoArticles)).lines <+:
        errors (report ⟨none, false, false, none⟩ "d" (.ok twoArticles)).lines := by
  have hopened : (Dictionary.ofSource none twoArticles).map (Dictionary.run ⟨false, false⟩) =
      .ok twoArticlesRun := by decide +kernel
  have hshown : outputs ((articlesOf twoArticlesRun).1.flatMap (printedItem false)) ++
      ((articlesOf twoArticlesRun).2.take 1).flatMap (fun a => outputs (a.printed false)) =
        ["    0".toList, [], "[0x3] a".toList, "    1".toList] ∧
      min 1 (articlesOf twoArticlesRun).2.length = 1 := by decide +kernel
  cases hd : Dictionary.ofSource none twoArticles with
  | error failure => rw [hd] at hopened; cases hopened
  | ok d =>
    rw [hd] at hopened
    have hrun : d.run ⟨false, false⟩ = twoArticlesRun := Except.ok.inj hopened
    have hcalm : ∀ fault, .error (.unreadable fault) ∉ d.run ⟨false, false⟩ := by
      intro fault
      rw [hrun]
      simp [twoArticlesRun]
    obtain ⟨-, -, hcut, herrors⟩ := report_limit ⟨none, false, false, none⟩ hd hcalm "d" 1
    refine ⟨d, rfl, hcalm, hcut.trans ?_, herrors⟩
    simp only [Options.mode, hrun]
    rw [hshown.2, List.append_assoc (opening "d" d), hshown.1]

end Reports

end Lexicon.Dump
