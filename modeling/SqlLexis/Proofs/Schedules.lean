import Mathlib.Logic.Relation
import Mathlib.Tactic.Tauto
import SqlLexis.CommandLine

/-!
# The order in which files are checked

Workers check the files of a job at the same time, and with `failFast` it depends on who comes
first what becomes of a file. `Pool.Step` is one step of one worker. The reports that some
interleaving of steps hands in are `Scheduled`, and those of a run that takes the files one after
the other are among them (`scheduled_reports`).

Many files may be skipped, but not all that would fail: the flag that lets a worker skip is set
by a failure that is reported (`Pool.Consistent`). So whether a check succeeds depends on the
files alone (`verdict_independent_of_schedule`), once there are files and workers and the system
has started the workers (`CheckJob.Accepts`).
-/

namespace SqlLexis

namespace Check

/-! ## Steps of workers -/

/-- How far a file has come. -/
inductive Progress where
  | waiting
  | started
  | done (o : FileOutcome)

/-- A step of a worker on a file whose outcome is `o` if it is started, with the flag and the
progress of the file before and after the step. Nothing orders the reads of the flag behind its
writes, so a worker may start a file although a failure has just been noted. -/
inductive Progress.Step (failFast : Bool) (o : FileOutcome) :
    Bool → Progress → Bool → Progress → Prop
  | start {stopped : Bool} : Step failFast o stopped .waiting stopped .started
  | skip (h : failFast = true) : Step failFast o true .waiting true (.done .skipped)
  | finish {stopped : Bool} :
      Step failFast o stopped .started (stopped || o.isFailure) (.done o)

/-- The files of a job in their order, and the flag that a failure sets. How many workers there
are is left open. -/
structure Pool where
  stopped : Bool
  files : List (String × Progress)

namespace Pool

/-- Some worker takes a step on some file. -/
inductive Step (failFast : Bool) (outcomeOf : String → FileOutcome) : Pool → Pool → Prop
  | work {stopped stopped' : Bool} (before : List (String × Progress)) {path : String}
      {p p' : Progress} {behind : List (String × Progress)}
      (h : Progress.Step failFast (outcomeOf path) stopped p stopped' p') :
      Step failFast outcomeOf ⟨stopped, before ++ (path, p) :: behind⟩
        ⟨stopped', before ++ (path, p') :: behind⟩

def initial (paths : List String) : Pool := ⟨false, paths.map fun path => (path, .waiting)⟩

/-- All files are done, with these reports in the order of the files. -/
def Finished (p : Pool) (reports : List FileReport) : Prop :=
  p.files = reports.map fun r => (r.path, .done r.outcome)

end Pool

/-- Reports that an interleaving of steps can hand in. -/
def Scheduled (failFast : Bool) (outcomeOf : String → FileOutcome) (paths : List String)
    (reports : List FileReport) : Prop :=
  ∃ p, Relation.ReflTransGen (Pool.Step failFast outcomeOf) (Pool.initial paths) p ∧
    p.Finished reports

variable {failFast : Bool} {outcomeOf : String → FileOutcome} {paths : List String}
  {reports : List FileReport}

/-! ## The flag follows a failure -/

/-- What a pool always keeps to: a finished file has its outcome unless the flag let a worker
skip it, and the flag is set by a failure that is kept. -/
structure Pool.Consistent (failFast : Bool) (outcomeOf : String → FileOutcome)
    (paths : List String) (p : Pool) : Prop where
  order : p.files.map Prod.fst = paths
  done : ∀ path o, (path, Progress.done o) ∈ p.files →
    o = outcomeOf path ∨ failFast = true ∧ p.stopped = true ∧ o = .skipped
  stopped : p.stopped = true →
    ∃ path o, (path, Progress.done o) ∈ p.files ∧ o.isFailure = true

namespace Progress.Step

variable {stopped stopped' : Bool} {o : FileOutcome} {p p' : Progress}

/-- What a worker leaves behind on its file. -/
theorem outcome_of_done (h : Progress.Step failFast o stopped p stopped' p') {o' : FileOutcome}
    (hp : p' = .done o') : o' = o ∨ failFast = true ∧ stopped' = true ∧ o' = .skipped := by
  cases h with
  | start => cases hp
  | skip hfast =>
      cases hp
      exact Or.inr ⟨hfast, rfl, rfl⟩
  | finish =>
      cases hp
      exact Or.inl rfl

/-- The flag is never taken back. -/
theorem stopped_mono (h : Progress.Step failFast o stopped p stopped' p')
    (hs : stopped = true) : stopped' = true := by
  cases h with
  | start => exact hs
  | skip => rfl
  | finish => rw [hs, Bool.true_or]

/-- A worker who sets the flag leaves a failure behind. -/
theorem failure_of_stopped (h : Progress.Step failFast o stopped p stopped' p')
    (hs : stopped' = true) : stopped = true ∨ p' = .done o ∧ o.isFailure = true := by
  cases h with
  | start => exact Or.inl hs
  | skip => exact Or.inl rfl
  | finish =>
      rcases (Bool.or_eq_true _ _).mp hs with hs | hs
      · exact Or.inl hs
      · exact Or.inr ⟨rfl, hs⟩

/-- No step starts on a file that is done. -/
theorem ne_done (h : Progress.Step failFast o stopped p stopped' p') (o' : FileOutcome) :
    p ≠ .done o' := by
  cases h with
  | start => nofun
  | skip => nofun
  | finish => nofun

end Progress.Step

namespace Pool

theorem consistent_initial (failFast : Bool) (outcomeOf : String → FileOutcome)
    (paths : List String) : (initial paths).Consistent failFast outcomeOf paths where
  order := by
    rw [initial, List.map_map]
    exact List.map_id paths
  done := by simp [initial]
  stopped := by simp [initial]

/-- A step keeps a pool consistent: of the files that are done, only the one that its worker is on
can be new. -/
theorem Consistent.step {p p' : Pool} (h : p.Consistent failFast outcomeOf paths)
    (hstep : Step failFast outcomeOf p p') : p'.Consistent failFast outcomeOf paths := by
  cases hstep with
  | @work stopped stopped' before path q q' behind hwork =>
    have hdoneIff : ∀ other o, (other, Progress.done o) ∈ before ++ (path, q') :: behind ↔
        (other, Progress.done o) ∈ before ++ (path, q) :: behind ∨
          other = path ∧ q' = .done o := by
      intro other o
      have hq : ¬ (other = path ∧ Progress.done o = q) :=
        fun heq => hwork.ne_done o heq.2.symm
      simp only [List.mem_append, List.mem_cons, Prod.mk.injEq, hq, false_or, eq_comm (a := q')]
      tauto
    refine ⟨by simpa using h.order, ?_, ?_⟩
    · intro other o hmem
      rcases (hdoneIff other o).mp hmem with hold | ⟨rfl, hq'⟩
      · rcases h.done other o hold with hbase | ⟨hfast, hs, hskip⟩
        · exact Or.inl hbase
        · exact Or.inr ⟨hfast, hwork.stopped_mono hs, hskip⟩
      · exact hwork.outcome_of_done hq'
    · intro hs
      rcases hwork.failure_of_stopped hs with hbefore | ⟨hq', hfails⟩
      · obtain ⟨other, o, hmem, hfails⟩ := h.stopped hbefore
        exact ⟨other, o, (hdoneIff other o).mpr (Or.inl hmem), hfails⟩
      · exact ⟨path, outcomeOf path, (hdoneIff _ _).mpr (Or.inr ⟨rfl, hq'⟩), hfails⟩

theorem consistent_of_reachable {p : Pool}
    (h : Relation.ReflTransGen (Step failFast outcomeOf) (initial paths) p) :
    p.Consistent failFast outcomeOf paths := by
  induction h with
  | refl => exact consistent_initial failFast outcomeOf paths
  | tail _ hstep ih => exact ih.step hstep

end Pool

/-! ## What the reports say -/

/-- The reports on files, whoever came first. -/
structure ReportsOn (failFast : Bool) (outcomeOf : String → FileOutcome) (paths : List String)
    (reports : List FileReport) : Prop where
  /-- One report for each file, in the order of the files. -/
  order : reports.map FileReport.path = paths
  checked : failFast = false → ∀ r ∈ reports, r.outcome = outcomeOf r.path
  checked_or_skipped : failFast = true →
    ∀ r ∈ reports, r.outcome = outcomeOf r.path ∨ r.outcome = .skipped
  /-- Files are skipped for a failure that is reported. -/
  skipped : (∃ r ∈ reports, r.outcome = .skipped) → ∃ r ∈ reports, r.outcome.isFailure = true
  /-- Whether there is a failure depends on the files alone. -/
  failure_iff : (∃ r ∈ reports, r.outcome.isFailure = true) ↔
    ∃ path ∈ paths, (outcomeOf path).isFailure = true

theorem reportsOn_of_scheduled (hrun : ∀ path, outcomeOf path ≠ .skipped)
    (h : Scheduled failFast outcomeOf paths reports) :
    ReportsOn failFast outcomeOf paths reports := by
  obtain ⟨p, hreach, hfinished⟩ := h
  have hp := Pool.consistent_of_reachable hreach
  have hmem : ∀ {r}, r ∈ reports → (r.path, Progress.done r.outcome) ∈ p.files := by
    intro r hr
    rw [hfinished]
    exact List.mem_map_of_mem hr
  have hreported : p.stopped = true → ∃ r ∈ reports, r.outcome.isFailure = true := by
    intro hs
    obtain ⟨path, o, hdone, hfails⟩ := hp.stopped hs
    rw [hfinished] at hdone
    obtain ⟨r, hr, heq⟩ := List.mem_map.mp hdone
    obtain ⟨-, rfl⟩ : r.path = path ∧ r.outcome = o := by simpa using heq
    exact ⟨r, hr, hfails⟩
  have hskipped : (∃ r ∈ reports, r.outcome = .skipped) →
      ∃ r ∈ reports, r.outcome.isFailure = true := by
    rintro ⟨r, hr, hskip⟩
    rcases hp.done _ _ (hmem hr) with hbase | ⟨-, hs, -⟩
    · exact absurd (hbase.symm.trans hskip) (hrun r.path)
    · exact hreported hs
  have hpaths : reports.map FileReport.path = paths := by
    rw [← hp.order, hfinished, List.map_map]
    rfl
  refine ⟨hpaths, ?_, ?_, hskipped, ?_, ?_⟩
  · intro hfast r hr
    rcases hp.done _ _ (hmem hr) with hbase | ⟨hfast', -, -⟩
    · exact hbase
    · exact absurd (hfast.symm.trans hfast') Bool.false_ne_true
  · intro _ r hr
    rcases hp.done _ _ (hmem hr) with hbase | ⟨-, -, hskip⟩
    · exact Or.inl hbase
    · exact Or.inr hskip
  · rintro ⟨r, hr, hfails⟩
    rcases hp.done _ _ (hmem hr) with hbase | ⟨-, -, hskip⟩
    · refine ⟨r.path, ?_, ?_⟩
      · rw [← hpaths]
        exact List.mem_map_of_mem hr
      · rwa [← hbase]
    · rw [hskip] at hfails
      exact absurd hfails Bool.false_ne_true
  · rintro ⟨path, hpath, hfails⟩
    rw [← hpaths] at hpath
    obtain ⟨r, hr, rfl⟩ := List.mem_map.mp hpath
    rcases hp.done _ _ (hmem hr) with hbase | ⟨-, -, hskip⟩
    · exact ⟨r, hr, by rwa [hbase]⟩
    · exact hskipped ⟨r, hr, hskip⟩

/-- The three things that a started file can come to. -/
theorem outcome_cases (files : Files) (d : Dialect) (path : String) :
    (∃ why, files.readText path = .error why ∧ outcome files d path = .unreadable why) ∨
      (∃ text e, files.readText path = .ok text ∧ tokenize d text = .error e ∧
        outcome files d path = .lexical e) ∨
      ∃ text tokens, files.readText path = .ok text ∧ tokenize d text = .ok tokens ∧
        outcome files d path = .passed tokens.length := by
  cases hread : files.readText path with
  | error why => exact Or.inl ⟨why, rfl, by simp only [outcome, hread]⟩
  | ok text =>
      cases htokens : tokenize d text with
      | error e =>
          exact Or.inr (Or.inl ⟨text, e, rfl, htokens, by simp only [outcome, hread, htokens]⟩)
      | ok tokens =>
          exact Or.inr (Or.inr ⟨text, tokens, rfl, htokens,
            by simp only [outcome, hread, htokens]⟩)

theorem outcome_ne_skipped (files : Files) (d : Dialect) (path : String) :
    outcome files d path ≠ .skipped := by
  rcases outcome_cases files d path with ⟨_, -, h⟩ | ⟨_, _, -, -, h⟩ | ⟨_, _, -, -, h⟩
  · rw [h]
    nofun
  · rw [h]
    nofun
  · rw [h]
    nofun

/-! ## One file after the other -/

/-- Behind files that are done, a lone worker can take the rest in order. -/
theorem exists_pool_of_reports (failFast : Bool) (outcomeOf : String → FileOutcome)
    (paths : List String) (stopped : Bool) (before : List (String × Progress)) :
    ∃ stopped', Relation.ReflTransGen (Pool.Step failFast outcomeOf)
      ⟨stopped, before ++ paths.map fun path => (path, .waiting)⟩
      ⟨stopped', before ++
        (Check.reports failFast outcomeOf stopped paths).map
          fun r => (r.path, .done r.outcome)⟩ := by
  induction paths generalizing stopped before with
  | nil => exact ⟨stopped, .refl⟩
  | cons path paths ih =>
    rw [Check.reports]
    split
    next hskip =>
      obtain ⟨hfast, rfl⟩ : failFast = true ∧ stopped = true := by simpa using hskip
      obtain ⟨stopped', hrest⟩ := ih true (before ++ [(path, .done .skipped)])
      simp only [List.append_assoc, List.singleton_append] at hrest
      exact ⟨stopped', .head (.work before (.skip hfast)) hrest⟩
    next =>
      obtain ⟨stopped', hrest⟩ :=
        ih (stopped || (outcomeOf path).isFailure) (before ++ [(path, .done (outcomeOf path))])
      simp only [List.append_assoc, List.singleton_append] at hrest
      exact ⟨stopped', .head (.work before .start) (.head (.work before .finish) hrest)⟩

theorem scheduled_reports (failFast : Bool) (outcomeOf : String → FileOutcome)
    (paths : List String) :
    Scheduled failFast outcomeOf paths (Check.reports failFast outcomeOf false paths) := by
  obtain ⟨stopped, hreach⟩ := exists_pool_of_reports failFast outcomeOf paths false []
  exact ⟨_, hreach, rfl⟩

end Check

/-! ## Runs -/

namespace CheckJob

variable {α β : Type} {job : CheckJob} {handedIn : Except String α}

/-- A run of the job is carried out: there are files and workers, and the workers start. -/
structure Accepts (job : CheckJob) (handedIn : Except String α) : Prop where
  files : job.files ≠ []
  jobs : job.jobs ≠ 0
  started : ∃ a, handedIn = .ok a

/-- The first reason for which a run of the job is not carried out. -/
inductive Refuses (job : CheckJob) (handedIn : Except String α) : Failure → Prop
  | noFiles (hfiles : job.files = []) : Refuses job handedIn .noInputFiles
  | noJobs (hfiles : job.files ≠ []) (hjobs : job.jobs = 0) : Refuses job handedIn .noJobs
  | notStarted (hfiles : job.files ≠ []) (hjobs : job.jobs ≠ 0) {why : String}
      (hstart : handedIn = .error why) : Refuses job handedIn (.workersNotStarted why)

theorem accepts_or_refuses (job : CheckJob) (handedIn : Except String α) :
    job.Accepts handedIn ∨ ∃ f, job.Refuses handedIn f := by
  by_cases hfiles : job.files = []
  · exact Or.inr ⟨_, .noFiles hfiles⟩
  · by_cases hjobs : job.jobs = 0
    · exact Or.inr ⟨_, .noJobs hfiles hjobs⟩
    · cases hstart : handedIn with
      | error why => exact Or.inr ⟨_, .notStarted hfiles hjobs rfl⟩
      | ok a => exact Or.inl ⟨hfiles, hjobs, a, rfl⟩

theorem Refuses.not_accepts {f : Failure} (h : job.Refuses handedIn f) :
    ¬ job.Accepts handedIn := by
  rintro ⟨hfiles, hjobs, a, hok⟩
  cases h with
  | noFiles hnone => exact hfiles hnone
  | noJobs _ hnone => exact hjobs hnone
  | notStarted _ _ hstart =>
      rw [hok] at hstart
      cases hstart

theorem Refuses.map {f : Failure} (h : job.Refuses handedIn f) (g : α → β) :
    job.Refuses (handedIn.map g) f := by
  cases h with
  | noFiles hfiles => exact .noFiles hfiles
  | noJobs hfiles hjobs => exact .noJobs hfiles hjobs
  | notStarted hfiles hjobs hstart =>
      subst hstart
      exact .notStarted hfiles hjobs rfl

end CheckJob

theorem DiagnosticLog.hasErrors_iff (l : DiagnosticLog) :
    l.hasErrors = true ↔ 0 < l.errorCount := by
  simp only [hasErrors, errorCount, count, List.any_eq_true, List.countP_pos_iff]

theorem DiagnosticLog.count_add (l : DiagnosticLog) (d : Diagnostic) (level : Level) :
    (l.add d).count level = l.count level + if d.level = level then 1 else 0 := by
  simp [count, add, List.countP_append, List.countP_singleton]

namespace Checker

theorem job_note (c : Checker) (r : FileReport) : (c.note r).job = c.job := by
  unfold note
  split
  · split
    · rfl
    · rfl
  · rfl
  · rfl
  · rfl

/-- One error is logged for a failure, and none for any other outcome. -/
theorem errorCount_note (c : Checker) (r : FileReport) :
    (c.note r).log.errorCount = c.log.errorCount + if r.outcome.isFailure then 1 else 0 := by
  rcases r with ⟨path, outcome⟩
  cases outcome with
  | passed n =>
      by_cases h : 1 < n
      · simp [note, h, FileOutcome.isFailure]
      · simp [note, h, FileOutcome.isFailure, DiagnosticLog.errorCount,
          DiagnosticLog.count_add]
  | unreadable why =>
      simp [note, FileOutcome.isFailure, DiagnosticLog.errorCount, DiagnosticLog.count_add]
  | lexical e =>
      simp [note, FileOutcome.isFailure, DiagnosticLog.errorCount, DiagnosticLog.count_add,
        LexicalError.toDiagnostic]
  | skipped => rfl

theorem job_foldl_note (c : Checker) (reports : List FileReport) :
    (reports.foldl note c).job = c.job := by
  induction reports generalizing c with
  | nil => rfl
  | cons r reports ih => rw [List.foldl_cons, ih, job_note]

theorem errorCount_foldl_note (c : Checker) (reports : List FileReport) :
    (reports.foldl note c).log.errorCount =
      c.log.errorCount + reports.countP fun r => r.outcome.isFailure := by
  induction reports generalizing c with
  | nil => rfl
  | cons r reports ih =>
    rw [List.foldl_cons, ih, errorCount_note, List.countP_cons]
    omega

theorem runWith_of_accepted {c : Checker} {reports : List FileReport}
    (h : c.job.Accepts (.ok reports)) :
    c.runWith (.ok reports) =
      (.ok ⟨reports, c.job.files.length, (reports.foldl note c).log.errorCount⟩,
        reports.foldl note c) := by
  simp [runWith, h.files, h.jobs, job_foldl_note]

/-- A run that is refused leaves the checker as it was. -/
theorem runWith_of_refused {c : Checker} {handedIn : Except String (List FileReport)}
    {f : Failure} (h : c.job.Refuses handedIn f) : c.runWith handedIn = (.error f, c) := by
  cases h with
  | noFiles hfiles => simp [runWith, hfiles]
  | noJobs hfiles hjobs => simp [runWith, hfiles, hjobs]
  | notStarted hfiles hjobs hstart => simp [runWith, hfiles, hjobs, hstart]

theorem job_runWith (c : Checker) (handedIn : Except String (List FileReport)) :
    (c.runWith handedIn).2.job = c.job := by
  rcases c.job.accepts_or_refuses handedIn with h | ⟨f, h⟩
  · obtain ⟨reports, rfl⟩ := h.started
    rw [runWith_of_accepted h, job_foldl_note]
  · rw [runWith_of_refused h]

end Checker

/-! ## The verdict -/

theorem CommandLine.Outcome.exit_ofVerdict (output errors : String)
    (verdict : Except Failure Unit) :
    (ofVerdict output errors verdict).exit = 0 ↔ verdict = .ok () := by
  cases verdict with
  | ok => simp [ofVerdict]
  | error f => simp [ofVerdict]

/-- A check succeeds if there is something to do, the workers start and no report is a failure. -/
theorem exit_ofCheck (job : CheckJob) (handedIn : Except String (List FileReport))
    (elapsed : Nat) :
    (CommandLine.Outcome.ofCheck elapsed ((Checker.ofJob job).runWith handedIn)).exit = 0 ↔
      job.files ≠ [] ∧ job.jobs ≠ 0 ∧
        ∃ reports, handedIn = .ok reports ∧ ¬ ∃ r ∈ reports, r.outcome.isFailure = true := by
  rcases job.accepts_or_refuses handedIn with h | ⟨f, h⟩
  · obtain ⟨hfiles, hjobs, reports, rfl⟩ := h
    have hcount : ((reports.foldl Checker.note (.ofJob job)).log.hasErrors = true) ↔
        ∃ r ∈ reports, r.outcome.isFailure = true := by
      rw [DiagnosticLog.hasErrors_iff, Checker.errorCount_foldl_note, ← List.countP_pos_iff]
      simp [Checker.ofJob, DiagnosticLog.empty, DiagnosticLog.errorCount, DiagnosticLog.count]
    rw [Checker.runWith_of_accepted (c := .ofJob job) ⟨hfiles, hjobs, reports, rfl⟩,
      CommandLine.Outcome.ofCheck, CommandLine.Outcome.exit_ofVerdict]
    simp only [Except.ok.injEq, exists_eq_left', ← hcount]
    simp [hfiles, hjobs]
  · have hfail : (CommandLine.Outcome.ofCheck elapsed (.error f, .ofJob job)).exit ≠ 0 := by
      simp [CommandLine.Outcome.ofCheck, CommandLine.Outcome.ofFailure,
        CommandLine.Outcome.exit_ofVerdict]
    rw [Checker.runWith_of_refused (c := .ofJob job) h]
    constructor
    · intro hexit
      exact absurd hexit hfail
    · rintro ⟨hfiles, hjobs, reports, hok, -⟩
      exact absurd ⟨hfiles, hjobs, reports, hok⟩ h.not_accepts

/-- Whether a check succeeds can be told from what each file would come to on its own. -/
theorem exit_ofCheck_of_scheduled {files : Files} {job : CheckJob} {failFast : Bool}
    {reports : List FileReport}
    (h : Check.Scheduled failFast (Check.outcome files job.dialect) job.files reports)
    (elapsed : Nat) :
    (CommandLine.Outcome.ofCheck elapsed
        ((Checker.ofJob { job with failFast }).runWith (.ok reports))).exit = 0 ↔
      job.files ≠ [] ∧ job.jobs ≠ 0 ∧
        ¬ ∃ path ∈ job.files, (Check.outcome files job.dialect path).isFailure = true := by
  have hreports := Check.reportsOn_of_scheduled (Check.outcome_ne_skipped files job.dialect) h
  rw [exit_ofCheck, ← hreports.failure_iff]
  simp

/-- The tool itself takes the files one after the other, once the system has started workers. -/
theorem CommandLine.exit_check (files : Files) (start : WorkerStart) (job : CheckJob)
    (elapsed : Nat) :
    (check files start job elapsed).exit = 0 ↔
      job.files ≠ [] ∧ job.jobs ≠ 0 ∧ start job.jobs = .ok () ∧
        ¬ ∃ path ∈ job.files, (Check.outcome files job.dialect path).isFailure = true := by
  have hreports := Check.reportsOn_of_scheduled (Check.outcome_ne_skipped files job.dialect)
    (Check.scheduled_reports job.failFast (Check.outcome files job.dialect) job.files)
  rw [check, Checker.run, exit_ofCheck, ← hreports.failure_iff]
  show _ ∧ _ ∧ (∃ reports, (start job.jobs).map _ = .ok reports ∧ _) ↔ _
  cases start job.jobs with
  | error why => simp [Except.map]
  | ok => simp [Except.map, Checker.ofJob]

/-- A system that refuses workers is the reason a check gives. -/
example :
    let files : Files := fun _ => .file "x".toUTF8
    CommandLine.check files (fun _ => .error "out of memory") ⟨["a.sql"], .mysql, 8, false⟩ 0 =
      ⟨1, "", "Error: Configuration error: Failed to start worker pool: out of memory\n"⟩ := by
  decide +kernel

/-- Whoever comes first, there is a report for each file, files are skipped only for a failure
that is reported, and the reports are those of the result. The check succeeds if there is something
to do and no file would fail, so its verdict is the same for every interleaving, with `failFast` or
without it. -/
theorem verdict_independent_of_schedule (files : Files) (job : CheckJob) (failFast : Bool)
    {reports reports' : List FileReport}
    (h : Check.Scheduled job.failFast (Check.outcome files job.dialect) job.files reports)
    (h' : Check.Scheduled failFast (Check.outcome files job.dialect) job.files reports')
    (elapsed elapsed' : Nat) :
    Check.ReportsOn job.failFast (Check.outcome files job.dialect) job.files reports ∧
      (job.files ≠ [] → job.jobs ≠ 0 → ∃ result,
        ((Checker.ofJob job).runWith (.ok reports)).1 = .ok result ∧ result.reports = reports) ∧
      ((CommandLine.Outcome.ofCheck elapsed
          ((Checker.ofJob job).runWith (.ok reports))).exit = 0 ↔
        job.files ≠ [] ∧ job.jobs ≠ 0 ∧
          ¬ ∃ path ∈ job.files, (Check.outcome files job.dialect path).isFailure = true) ∧
      ((CommandLine.Outcome.ofCheck elapsed
          ((Checker.ofJob job).runWith (.ok reports))).exit = 0 ↔
        (CommandLine.Outcome.ofCheck elapsed'
          ((Checker.ofJob { job with failFast }).runWith (.ok reports'))).exit = 0) := by
  refine ⟨Check.reportsOn_of_scheduled (Check.outcome_ne_skipped files job.dialect) h, ?_,
    exit_ofCheck_of_scheduled h elapsed, ?_⟩
  · intro hfiles hjobs
    have haccepts : job.Accepts (.ok reports) := ⟨hfiles, hjobs, reports, rfl⟩
    exact ⟨_, congrArg Prod.fst (Checker.runWith_of_accepted (c := .ofJob job) haccepts), rfl⟩
  · rw [exit_ofCheck_of_scheduled h', ← exit_ofCheck_of_scheduled h elapsed]

/-- The last of three files is taken first and fails, so the first is skipped; the second was
started before the failure. The check fails then, and if the files are taken in order. -/
theorem verdict_independent_of_schedule_last_first :
    let files : Files := fun path =>
      if path = "c.sql" then .absent .notFound else .file "x ;".toUTF8
    let job : CheckJob := ⟨["a.sql", "b.sql", "c.sql"], .oracle, 2, true⟩
    let reports : List FileReport :=
      [⟨"a.sql", .skipped⟩, ⟨"b.sql", .passed 3⟩, ⟨"c.sql", .unreadable .notFound⟩]
    let reports' := Check.reports false (Check.outcome files job.dialect) false job.files
    (Check.Scheduled job.failFast (Check.outcome files job.dialect) job.files reports ∧
      Check.Scheduled false (Check.outcome files job.dialect) job.files reports') ∧
    Check.ReportsOn job.failFast (Check.outcome files job.dialect) job.files reports ∧
      (∃ result, ((Checker.ofJob job).runWith (.ok reports)).1 = .ok result ∧
        result.reports = reports) ∧
      (CommandLine.Outcome.ofCheck 0 ((Checker.ofJob job).runWith (.ok reports))).exit ≠ 0 ∧
      (CommandLine.Outcome.ofCheck 5
        ((Checker.ofJob { job with failFast := false }).runWith (.ok reports'))).exit ≠ 0 := by
  intro files job reports reports'
  have hb : Check.outcome files job.dialect "b.sql" = .passed 3 := by decide +kernel
  have hc : Check.outcome files job.dialect "c.sql" = .unreadable .notFound := by decide +kernel
  have hbfinish : Check.Progress.Step true (Check.outcome files job.dialect "b.sql")
      true .started true (.done (.passed 3)) := by
    rw [hb]
    exact .finish
  have hcfinish : Check.Progress.Step true (Check.outcome files job.dialect "c.sql")
      false .started true (.done (.unreadable .notFound)) := by
    rw [hc]
    exact .finish
  have h : Check.Scheduled true (Check.outcome files job.dialect) job.files reports := by
    refine ⟨⟨true, [("a.sql", .done .skipped), ("b.sql", .done (.passed 3)),
      ("c.sql", .done (.unreadable .notFound))]⟩, ?_, rfl⟩
    refine .head (.work [("a.sql", .waiting)] .start) ?_
    refine .head (.work [("a.sql", .waiting), ("b.sql", .started)] .start) ?_
    refine .head (.work [("a.sql", .waiting), ("b.sql", .started)] hcfinish) ?_
    refine .head (.work [("a.sql", .waiting)] hbfinish) ?_
    exact .single (.work [] (.skip rfl))
  have h' := Check.scheduled_reports false (Check.outcome files job.dialect) job.files
  obtain ⟨hreports, hresult, hexit, hsame⟩ :=
    verdict_independent_of_schedule files job false h h' 0 5
  have hfails : ∃ path ∈ job.files, (Check.outcome files job.dialect path).isFailure = true :=
    ⟨"c.sql", by simp [job], by rw [hc]; rfl⟩
  have hne : (CommandLine.Outcome.ofCheck 0 ((Checker.ofJob job).runWith (.ok reports))).exit ≠ 0 :=
    fun hzero => (hexit.mp hzero).2.2 hfails
  exact ⟨⟨h, h'⟩, hreports, hresult (by simp [job]) (by simp [job]), hne, hne ∘ hsame.mpr⟩

end SqlLexis
