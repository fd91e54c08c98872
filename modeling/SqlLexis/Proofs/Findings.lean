import Mathlib.Data.List.Forall2
import SqlLexis.Proofs.Faults
import SqlLexis.Proofs.Lossless
import SqlLexis.Proofs.Schedules

/-!
# What a checker keeps

A checker keeps its diagnostics and the texts they point into over several runs. For a report
that calls for a remark both lists grow by one, and for any other report neither does
(`Checker.note_of_notable`, `Checker.note_of_not_notable`). So diagnostics and texts stay in step
whatever came before (`Checker.Attributes`), although a lexical error is reported in a text of
its own number. `findings_attributed` says what this comes to for any runs of a job.
-/

namespace SqlLexis

/-! ## What a file comes to -/

/-- A lexical error carries the text it was found in. -/
theorem input_of_tokenize_error {d : Dialect} {text : List Char} {e : LexicalError}
    (h : tokenize d text = .error e) : e.input = text := by
  have hfails : Lexer.Call.tokenize.failure? (Lexer.ofDialect ⟨text⟩ d) = some e := by
    rw [tokenize] at h
    simp only [Lexer.Call.failure?, h]
  obtain ⟨l, ⟨hs, hf⟩, hup⟩ :=
    Lexer.Call.failure_origin (P := fun l => l.source = ⟨text⟩ ∧ l.forms = d.forms)
      (fun _ _ h _ => h) ⟨rfl, rfl⟩ hfails
  have hbuiltIn : l.forms.BuiltIn := hf ▸ d.forms_builtIn
  rw [(Lexer.faulty_of_scan hbuiltIn (Lexer.scan_of_upcoming_error hup)).1, hs]

/-- There is no token but the end if there are no two. -/
theorem tokens_eq_finish {d : Dialect} {text : List Char} {tokens : List Token}
    (h : tokenize d text = .ok tokens) (hlen : tokens.length ≤ 1) :
    tokens = [⟨.finish, [], text.length⟩] := by
  rw [tokenize_eq_tokensFrom, Source.tokensFrom_eq_ok_iff d.forms_builtIn] at h
  obtain ⟨us, rfl, -⟩ := h.finish_last (Nat.zero_le _)
  cases us with
  | nil => rfl
  | cons u us => simp at hlen

/-! ## Remarks -/

/-- What is to be said about a report on a file, with the text it is said about. -/
inductive Remark (files : Files) (d : Dialect) (r : FileReport) :
    Level → Option DiagnosticCode → List Char → Prop
  | unreadable {why : ReadError} (h : r.outcome = .unreadable why)
      (hread : files.readText r.path = .error why) :
      Remark files d r .error (some .unreadable) []
  | lexical {e : LexicalError} {text : List Char} (h : r.outcome = .lexical e)
      (hread : files.readText r.path = .ok text) (htokens : tokenize d text = .error e) :
      Remark files d r .error (some e.cause.code) text
  | noStatement {text : List Char} (h : r.outcome = .passed 1)
      (hread : files.readText r.path = .ok text)
      (htokens : tokenize d text = .ok [⟨.finish, [], text.length⟩]) :
      Remark files d r .warning (some .noStatement) []

/-- The report calls for a remark: it is a failure or says that there is no token but the end. -/
def FileReport.isNotable (r : FileReport) : Bool :=
  match r.outcome with
  | .passed tokens => tokens ≤ 1
  | .unreadable _ | .lexical _ => true
  | .skipped => false

/-- The diagnostic and the text that are kept for a report under a number. -/
structure Finding (files : Files) (d : Dialect) (r : FileReport) (number : Nat)
    (diag : Diagnostic) (text : NamedText) : Prop where
  span : diag.span.text = ⟨number⟩
  id : text.id = ⟨number⟩
  name : text.name = r.path
  remark : Remark files d r diag.level diag.code text.content

/-- The report says what its file came to when it was read, or that the file was skipped. -/
def FileReport.Genuine (files : Files) (d : Dialect) (r : FileReport) : Prop :=
  r.outcome = Check.outcome files d r.path ∨ r.outcome = .skipped

namespace Checker

variable {files : Files} {d : Dialect} {r : FileReport}

/-- A report that calls for no remark changes nothing. -/
theorem note_of_not_notable (c : Checker) (h : r.isNotable = false) : c.note r = c := by
  rcases r with ⟨path, outcome⟩
  cases outcome with
  | passed n =>
      have hn : 1 < n := by simpa [FileReport.isNotable] using h
      simp only [note, hn, if_true]
  | unreadable why => exact absurd h (by simp [FileReport.isNotable])
  | lexical e => exact absurd h (by simp [FileReport.isNotable])
  | skipped => rfl

/-- Any other report adds one diagnostic and one text, under the same number. -/
theorem note_of_notable (c : Checker) (hr : r.Genuine files d) (h : r.isNotable = true) :
    ∃ diag text, c.note r =
        { c with log := ⟨c.log.entries ++ [diag]⟩, texts := ⟨c.texts.texts ++ [text]⟩ } ∧
      Finding files d r c.texts.texts.length diag text := by
  rcases hr with hr | hr
  · rcases Check.outcome_cases files d r.path with
      ⟨why, hread, ho⟩ | ⟨text, e, hread, htokens, ho⟩ | ⟨text, tokens, hread, htokens, ho⟩
    · rw [ho] at hr
      exact ⟨_, _, by simp only [note, hr]; rfl, rfl, rfl, rfl, .unreadable hr hread⟩
    · rw [ho] at hr
      refine ⟨_, _, by simp only [note, hr]; rfl, rfl, rfl, rfl, ?_⟩
      rw [input_of_tokenize_error htokens]
      exact .lexical hr hread htokens
    · rw [ho] at hr
      have hlen : tokens.length ≤ 1 := by simpa [FileReport.isNotable, hr] using h
      obtain rfl := tokens_eq_finish htokens hlen
      exact ⟨_, _, by simp only [note, hr]; rfl, rfl, rfl, rfl, .noStatement hr hread htokens⟩
  · exact absurd h (by simp [FileReport.isNotable, hr])

/-! ## One entry for a report -/

/-- The diagnostics and the texts that are kept belong one by one to these reports, each on the
files as they were when it was made. -/
structure Attributes (c : Checker) (d : Dialect) (noted : List (Files × FileReport)) : Prop where
  entries : c.log.entries.length = noted.length
  texts : c.texts.texts.length = noted.length
  own : ∀ i files r, noted[i]? = some (files, r) → ∃ diag text,
    c.log.entries[i]? = some diag ∧ c.texts.get? diag.span.text = some text ∧
      Finding files d r i diag text

theorem attributes_ofJob (job : CheckJob) (d : Dialect) : (ofJob job).Attributes d [] where
  entries := rfl
  texts := rfl
  own := by simp

variable {noted : List (Files × FileReport)}

theorem Attributes.note {c : Checker} (hc : c.Attributes d noted) (hr : r.Genuine files d)
    (h : r.isNotable = true) : (c.note r).Attributes d (noted ++ [(files, r)]) := by
  obtain ⟨diag, text, hnote, hfinding⟩ := c.note_of_notable hr h
  rw [hnote]
  refine ⟨by simp [hc.entries], by simp [hc.texts], ?_⟩
  intro i files' r' hi
  rcases Nat.lt_or_ge i noted.length with hlt | hge
  · rw [List.getElem?_append_left hlt] at hi
    obtain ⟨diag', text', hdiag, htext, hown⟩ := hc.own i files' r' hi
    refine ⟨diag', text', ?_, ?_, hown⟩
    · rw [List.getElem?_append_left (by rwa [hc.entries]), hdiag]
    · rw [TextStore.get?, hown.span] at htext ⊢
      rw [List.getElem?_append_left (by rwa [hc.texts]), htext]
  · obtain rfl : i = noted.length := by
      have hlen := (List.getElem?_eq_some_iff.mp hi).1
      rw [List.length_append, List.length_singleton] at hlen
      omega
    obtain ⟨rfl, rfl⟩ : files = files' ∧ r = r' := by simpa using hi
    rw [hc.texts] at hfinding
    refine ⟨diag, text, ?_, ?_, hfinding⟩
    · rw [← hc.entries, List.getElem?_concat_length]
    · rw [TextStore.get?, hfinding.span]
      show (c.texts.texts ++ [text])[noted.length]? = some text
      rw [← hc.texts, List.getElem?_concat_length]

theorem Attributes.foldl_note {c : Checker} (hc : c.Attributes d noted)
    {handedIn : List (Files × FileReport)} (h : ∀ p ∈ handedIn, p.2.Genuine p.1 d) :
    ((handedIn.map Prod.snd).foldl Checker.note c).Attributes d
      (noted ++ handedIn.filter fun p => p.2.isNotable) := by
  induction handedIn generalizing c noted with
  | nil => simpa using hc
  | cons p handedIn ih =>
    obtain ⟨hthis, hrest⟩ := List.forall_mem_cons.mp h
    rw [List.map_cons, List.foldl_cons]
    cases hp : p.2.isNotable with
    | false =>
        rw [note_of_not_notable c hp, List.filter_cons, if_neg (by simp [hp])]
        exact ih hc hrest
    | true =>
        rw [List.filter_cons, if_pos hp, List.append_cons]
        exact ih (hc.note hthis hp) hrest

/-- What is kept stays, and for each report that calls for a remark a diagnostic is added. -/
theorem exists_added (c : Checker) {handedIn : List (Files × FileReport)}
    (h : ∀ p ∈ handedIn, p.2.Genuine p.1 d) :
    ∃ added, ((handedIn.map Prod.snd).foldl note c).log.entries = c.log.entries ++ added ∧
      List.Forall₂ (fun p diag => ∃ content, Remark p.1 d p.2 diag.level diag.code content)
        (handedIn.filter fun p => p.2.isNotable) added := by
  induction handedIn generalizing c with
  | nil => exact ⟨[], (List.append_nil _).symm, .nil⟩
  | cons p handedIn ih =>
    obtain ⟨hthis, hrest⟩ := List.forall_mem_cons.mp h
    obtain ⟨added, hadded, hremarks⟩ := ih (c.note p.2) hrest
    rw [List.map_cons, List.foldl_cons, hadded]
    cases hp : p.2.isNotable with
    | false =>
        rw [note_of_not_notable c hp, List.filter_cons, if_neg (by simp [hp])]
        exact ⟨added, rfl, hremarks⟩
    | true =>
        obtain ⟨diag, text, hnote, hfinding⟩ := c.note_of_notable hthis hp
        rw [hnote, List.filter_cons, if_pos hp]
        exact ⟨diag :: added, List.append_assoc _ _ _, .cons ⟨_, hfinding.remark⟩ hremarks⟩

end Checker

/-- Exactly the notable reports call for a remark. -/
theorem FileReport.isNotable_iff {files : Files} {d : Dialect} {r : FileReport}
    (hr : r.Genuine files d) :
    r.isNotable = true ↔ ∃ level code content, Remark files d r level code content := by
  constructor
  · intro h
    obtain ⟨diag, text, -, hfinding⟩ :=
      (Checker.ofJob ⟨[], d, 0, false⟩).note_of_notable hr h
    exact ⟨_, _, _, hfinding.remark⟩
  · rintro ⟨level, code, content, hremark⟩
    cases hremark with
    | unreadable h => simp [isNotable, h]
    | lexical h => simp [isNotable, h]
    | noStatement h => simp [isNotable, h]

/-! ## Runs -/

/-- A run of a checker: the reports that its workers hand in, each with the files as they were
when it was made, or why the workers could not be started. -/
structure CheckRun where
  handedIn : Except String (List (Files × FileReport))

namespace CheckRun

/-- The reports that are handed in; there are none if the workers do not start. -/
def made (run : CheckRun) : List (Files × FileReport) :=
  match run.handedIn with
  | .ok made => made
  | .error _ => []

def reports (run : CheckRun) : List FileReport := run.made.map Prod.snd

/-- The run on a checker. -/
def on (run : CheckRun) (c : Checker) : Except Failure CheckResult × Checker :=
  c.runWith (run.handedIn.map (List.map Prod.snd))

/-- Every report of the run is genuine. Those of an interleaving of workers are, with the same
files for all of them (`genuine_of_scheduled`), but a file may also change during the run. -/
def Genuine (job : CheckJob) (run : CheckRun) : Prop :=
  ∀ p ∈ run.made, p.2.Genuine p.1 job.dialect

/-- The reports that the run returns. It returns none if it is not carried out. -/
def returned (job : CheckJob) (run : CheckRun) : List (Files × FileReport) :=
  match (run.on (Checker.ofJob job)).1 with
  | .ok _ => run.made
  | .error _ => []

/-- The returned reports that call for a remark. -/
def notable (job : CheckJob) (run : CheckRun) : List (Files × FileReport) :=
  (run.returned job).filter fun p => p.2.isNotable

/-- A checker after some runs. -/
def after (c : Checker) (runs : List CheckRun) : Checker :=
  runs.foldl (fun c run => (run.on c).2) c

/-- What a run leaves behind: everything from before stays, and one diagnostic is added for each
returned report about which there is something to say, in the order of the reports. A run that is
not carried out leaves the checker as it was. -/
structure Adds (job : CheckJob) (c : Checker) (run : CheckRun) : Prop where
  notable_iff : ∀ p ∈ run.returned job, p.2.isNotable = true ↔
    ∃ level code content, Remark p.1 job.dialect p.2 level code content
  added : ∃ added, (run.on c).2.log.entries = c.log.entries ++ added ∧
    List.Forall₂ (fun p diag => ∃ content, Remark p.1 job.dialect p.2 diag.level diag.code content)
      (run.notable job) added
  unchanged : ¬ job.Accepts run.handedIn → (run.on c).2 = c

/-- What a first run says: if it is carried out it returns, it counts the failures, and the check
succeeds if there are none; otherwise it gives the reason. -/
structure CountsFailures (job : CheckJob) (run : CheckRun) : Prop where
  returns : job.Accepts run.handedIn → ∃ result,
    (run.on (Checker.ofJob job)).1 = .ok result ∧ result.reports = run.reports ∧
      result.failed = (run.reports.countP fun r => r.outcome.isFailure) ∧
      ∀ elapsed, (CommandLine.Outcome.ofCheck elapsed
        (run.on (Checker.ofJob job))).exit = 0 ↔ result.failed = 0
  refused : ¬ job.Accepts run.handedIn → ∃ f, job.Refuses run.handedIn f ∧
    (run.on (Checker.ofJob job)).1 = .error f

variable {job : CheckJob} {run : CheckRun} {c : Checker}

theorem genuine_of_scheduled {files : Files} {reports : List FileReport}
    (h : Check.Scheduled job.failFast (Check.outcome files job.dialect) job.files reports) :
    Genuine job ⟨.ok (reports.map fun r => (files, r))⟩ := by
  have hreports := Check.reportsOn_of_scheduled (Check.outcome_ne_skipped files job.dialect) h
  intro p hp
  obtain ⟨r, hr, rfl⟩ := List.mem_map.mp hp
  cases hfast : job.failFast with
  | false => exact Or.inl (hreports.checked hfast r hr)
  | true => exact hreports.checked_or_skipped hfast r hr

theorem on_of_accepted (h : c.job.Accepts run.handedIn) :
    run.on c =
      (.ok ⟨run.reports, c.job.files.length, (run.reports.foldl Checker.note c).log.errorCount⟩,
        run.reports.foldl Checker.note c) := by
  obtain ⟨hfiles, hjobs, made, hmade⟩ := h
  rw [on, reports, CheckRun.made, hmade]
  exact Checker.runWith_of_accepted ⟨hfiles, hjobs, _, rfl⟩

theorem on_of_refused {f : Failure} (h : c.job.Refuses run.handedIn f) :
    run.on c = (.error f, c) :=
  Checker.runWith_of_refused (h.map _)

theorem job_on (c : Checker) (run : CheckRun) : (run.on c).2.job = c.job :=
  c.job_runWith _

theorem returned_of_accepted (h : job.Accepts run.handedIn) : run.returned job = run.made := by
  rw [returned, on_of_accepted (c := .ofJob job) h]

theorem returned_of_refused {f : Failure} (h : job.Refuses run.handedIn f) :
    run.returned job = [] := by
  rw [returned, on_of_refused (c := .ofJob job) h]

theorem mem_of_mem_returned {p : Files × FileReport} (hp : p ∈ run.returned job) :
    p ∈ run.made := by
  unfold returned at hp
  split at hp
  · exact hp
  · exact absurd hp List.not_mem_nil

/-- What a run returns is what it takes note of. -/
theorem on_snd (hc : c.job = job) :
    (run.on c).2 = ((run.returned job).map Prod.snd).foldl Checker.note c := by
  subst hc
  rcases c.job.accepts_or_refuses run.handedIn with h | ⟨f, h⟩
  · rw [on_of_accepted h, returned_of_accepted h]
    rfl
  · rw [on_of_refused h, returned_of_refused h, List.map_nil, List.foldl_nil]

theorem job_after (c : Checker) (runs : List CheckRun) : (after c runs).job = c.job := by
  induction runs generalizing c with
  | nil => rfl
  | cons run runs ih => exact (ih _).trans (job_on c run)

theorem Genuine.adds (h : run.Genuine job) (hc : c.job = job) : run.Adds job c where
  notable_iff p hp := FileReport.isNotable_iff (h p (mem_of_mem_returned hp))
  added := by
    rw [on_snd hc]
    exact c.exists_added fun p hp => h p (mem_of_mem_returned hp)
  unchanged := by
    intro hnot
    subst hc
    obtain ⟨f, h⟩ := (c.job.accepts_or_refuses run.handedIn).resolve_left hnot
    rw [on_of_refused h]

theorem countsFailures (job : CheckJob) (run : CheckRun) : run.CountsFailures job where
  returns := by
    intro h
    have hcount := Checker.errorCount_foldl_note (.ofJob job) run.reports
    rw [show (Checker.ofJob job).log.errorCount = 0 from rfl, Nat.zero_add] at hcount
    refine ⟨_, congrArg Prod.fst (on_of_accepted (c := .ofJob job) h), rfl, hcount, ?_⟩
    intro elapsed
    obtain ⟨hfiles, hjobs, made, hmade⟩ := h
    rw [hcount, List.countP_eq_zero, on, exit_ofCheck, reports, CheckRun.made, hmade]
    simp [hfiles, hjobs, Except.map]
  refused := by
    intro hnot
    obtain ⟨f, h⟩ := (job.accepts_or_refuses run.handedIn).resolve_left hnot
    exact ⟨f, h, congrArg Prod.fst (on_of_refused (c := .ofJob job) h)⟩

theorem attributes_after {noted : List (Files × FileReport)} {runs : List CheckRun}
    (h : ∀ run ∈ runs, run.Genuine job) (hjob : c.job = job)
    (hc : c.Attributes job.dialect noted) :
    (after c runs).Attributes job.dialect (noted ++ runs.flatMap (notable job)) := by
  induction runs generalizing c noted with
  | nil => simpa [after] using hc
  | cons run runs ih =>
    obtain ⟨hthis, hrest⟩ := List.forall_mem_cons.mp h
    have hrun : (run.on c).2.Attributes job.dialect (noted ++ run.notable job) := by
      rw [on_snd hjob]
      exact hc.foldl_note fun p hp => hthis p (mem_of_mem_returned hp)
    rw [List.flatMap_cons, ← List.append_assoc]
    exact ih hrest ((job_on c run).trans hjob) hrun

end CheckRun

/-- After any runs of a job, whatever the files hold and whoever comes first, there is one
diagnostic and one text for each returned report that calls for a remark: run by run, in the
order of the reports, and each points into the text of its own report. -/
theorem findings_attributed (job : CheckJob) (runs : List CheckRun)
    (h : ∀ run ∈ runs, run.Genuine job) :
    (CheckRun.after (.ofJob job) runs).Attributes job.dialect
        (runs.flatMap (CheckRun.notable job)) ∧
      (∀ before run behind, runs = before ++ run :: behind →
        run.Adds job (CheckRun.after (.ofJob job) before)) ∧
      ∀ run ∈ runs, run.CountsFailures job := by
  refine ⟨?_, ?_, fun run _ => run.countsFailures job⟩
  · exact CheckRun.attributes_after h rfl (Checker.attributes_ofJob job job.dialect)
  · rintro before run behind rfl
    exact (h run (by simp)).adds (CheckRun.job_after _ before)

/-- A file that is named twice is broken where it is checked first and skipped after that. Then no
worker can be started, which leaves nothing behind. In the last run, in the order of the files, the
file is mended and only a missing one is reported again. -/
theorem findings_attributed_mended_file :
    let broken : Files := fun path =>
      if path = "a.sql" then .file "x\n'y".toUTF8
      else if path = "b.sql" then .file "-- b".toUTF8 else .absent .notFound
    let mended : Files := fun path =>
      if path = "c.sql" then .absent .notFound else .file "x".toUTF8
    let job : CheckJob := ⟨["b.sql", "a.sql", "a.sql", "c.sql"], .mysql, 4, true⟩
    let e : LexicalError := ⟨.unterminatedChars singleQuote, "x\n'y".toList, 2⟩
    let first : CheckRun :=
      ⟨.ok [(broken, ⟨"b.sql", .passed 1⟩), (broken, ⟨"a.sql", .lexical e⟩),
        (broken, ⟨"a.sql", .skipped⟩), (broken, ⟨"c.sql", .unreadable .notFound⟩)]⟩
    let idle : CheckRun := ⟨.error "out of memory"⟩
    let last : CheckRun :=
      ⟨.ok ((Check.reports job.failFast (Check.outcome mended job.dialect) false job.files).map
        fun r => (mended, r))⟩
    let runs : List CheckRun := [first, idle, last]
    let c := CheckRun.after (.ofJob job) runs
    (∀ run ∈ runs, run.Genuine job) ∧
      c.Attributes job.dialect (runs.flatMap (CheckRun.notable job)) ∧
      (c.log.entries.map fun diag => (diag.span.text.index, diag.code)) =
        [(0, some .noStatement), (1, some e.cause.code), (2, some .unreadable),
          (3, some .unreadable)] ∧
      (c.texts.texts.map fun text => (text.name, text.content)) =
        [("b.sql", []), ("a.sql", e.input), ("c.sql", []), ("c.sql", [])] := by
  intro broken mended job e first idle last runs c
  have hfirst : first.Genuine job := by
    simp only [first, CheckRun.Genuine, CheckRun.made, FileReport.Genuine, List.forall_mem_cons,
      List.not_mem_nil, false_imp_iff, implies_true, and_true]
    decide +kernel
  have hidle : idle.Genuine job := List.forall_mem_nil _
  have hlast : last.Genuine job :=
    CheckRun.genuine_of_scheduled (Check.scheduled_reports _ _ _)
  have h : ∀ run ∈ runs, run.Genuine job :=
    List.forall_mem_cons.mpr
      ⟨hfirst, List.forall_mem_cons.mpr ⟨hidle, List.forall_mem_singleton.mpr hlast⟩⟩
  exact ⟨h, (findings_attributed job runs h).1, by decide +kernel⟩

end SqlLexis
