import SqlLexis.Proofs.Findings

/-!
# What a result counts

The number of failures in the result of a run is read from the log of the checker, which keeps the
diagnostics of all its runs. A run logs one error for each failure among its reports
(`Checker.errorCount_foldl_note`), so a result counts the failures of its own run and of every run
before it (`CheckRun.counts_of_ok`). `failed_counts_all_runs` says when this is the number of
failures among the reports of the result, and when the verdict is right all the same.
-/

namespace SqlLexis

/-- The number of failures among some reports. -/
def FileReport.failures (reports : List FileReport) : Nat :=
  reports.countP fun r => r.outcome.isFailure

theorem FileReport.failures_append (rs rs' : List FileReport) :
    failures (rs ++ rs') = failures rs + failures rs' :=
  List.countP_append

theorem FileReport.failures_eq_zero_iff {rs : List FileReport} :
    failures rs = 0 ↔ ∀ r ∈ rs, r.outcome.isFailure = false := by
  simp [failures, List.countP_eq_zero]

namespace CheckRun

open FileReport

variable {job : CheckJob} {c : Checker} {run : CheckRun} {runs : List CheckRun}
  {result : CheckResult}

/-! ## One run -/

/-- The run that takes the files of a job one after the other, if workers start for it. -/
def inOrder (job : CheckJob) (files : Files) (start : WorkerStart) : CheckRun :=
  ⟨(start job.jobs).map fun _ =>
    (Check.reports job.failFast (Check.outcome files job.dialect) false job.files).map
      fun r => (files, r)⟩

theorem on_inOrder (c : Checker) (files : Files) (start : WorkerStart) :
    (inOrder c.job files start).on c = c.run files start := by
  rw [on, inOrder, Checker.run]
  cases start c.job.jobs with
  | error why => rfl
  | ok =>
      simp only [Except.map, List.map_map]
      exact congrArg (fun reports => c.runWith (.ok reports)) (List.map_id _)

/-- There is a result only if the run is carried out, and what it counts is what has been logged
before and the failures of the run. -/
theorem on_eq_ok (h : (run.on c).1 = .ok result) :
    c.job.Accepts run.handedIn ∧
      result = ⟨run.reports, c.job.files.length, c.log.errorCount + failures run.reports⟩ := by
  rcases c.job.accepts_or_refuses run.handedIn with haccepts | ⟨f, hrefuses⟩
  · rw [on_of_accepted haccepts] at h
    obtain rfl := Except.ok.inj h
    exact ⟨haccepts, by rw [Checker.errorCount_foldl_note, failures]⟩
  · rw [on_of_refused hrefuses] at h
    exact absurd h (by simp)

theorem errorCount_on (hfiles : c.job.files ≠ []) (hjobs : c.job.jobs ≠ 0) :
    (run.on c).2.log.errorCount = c.log.errorCount + failures run.reports := by
  rcases c.job.accepts_or_refuses run.handedIn with h | ⟨f, h⟩
  · rw [on_of_accepted h]
    exact Checker.errorCount_foldl_note c run.reports
  · rw [on_of_refused h]
    cases h with
    | noFiles hnone => exact absurd hnone hfiles
    | noJobs _ hnone => exact absurd hnone hjobs
    | notStarted _ _ hstart =>
        rw [reports, made, hstart]
        rfl

/-! ## One run after the other -/

/-- The log counts the failures of all runs, each of which leaves another checker of the same job
behind. -/
theorem errorCount_after (hfiles : c.job.files ≠ []) (hjobs : c.job.jobs ≠ 0) :
    (after c runs).log.errorCount = c.log.errorCount + failures (runs.flatMap reports) := by
  induction runs generalizing c with
  | nil => rfl
  | cons run runs ih =>
      have hjob := job_on c run
      show (after (run.on c).2 runs).log.errorCount = _
      rw [ih (by rwa [hjob]) (by rwa [hjob]), errorCount_on hfiles hjobs, List.flatMap_cons,
        failures_append, Nat.add_assoc]

/-- What the result of a run says when `runs` came before it on the same checker. -/
structure Counts (job : CheckJob) (runs : List CheckRun) (run : CheckRun)
    (result : CheckResult) : Prop where
  reports : result.reports = run.reports
  processed : result.processed = job.files.length
  failed : result.failed = failures (runs.flatMap CheckRun.reports) + failures result.reports
  /-- The result counts its own run exactly if nothing failed before. -/
  own_iff : result.failed = failures result.reports ↔
    ∀ earlier ∈ runs, ∀ r ∈ earlier.reports, r.outcome.isFailure = false
  /-- The result is a success exactly if nothing has failed so far. -/
  success_iff : result.isSuccess = true ↔
    ∀ other ∈ runs ++ [run], ∀ r ∈ other.reports, r.outcome.isFailure = false
  /-- With one report for each file, no more of them are failures than there are files. -/
  failures_le : run.reports.map FileReport.path = job.files →
    failures result.reports ≤ result.processed

theorem counts_of_ok (h : (run.on (after (.ofJob job) runs)).1 = .ok result) :
    Counts job runs run result := by
  obtain ⟨⟨hfiles, hjobs, -⟩, rfl⟩ := on_eq_ok h
  rw [job_after] at hfiles hjobs
  have hlog : (after (.ofJob job) runs).log.errorCount = failures (runs.flatMap reports) := by
    rw [errorCount_after hfiles hjobs]
    exact Nat.zero_add _
  rw [hlog, job_after]
  refine ⟨rfl, rfl, rfl, ?_, ?_, ?_⟩
  · rw [← List.forall_mem_flatMap, ← failures_eq_zero_iff]
    exact Nat.add_eq_right
  · have hall : (runs ++ [run]).flatMap reports = runs.flatMap reports ++ run.reports := by
      rw [List.flatMap_append, List.flatMap_singleton]
    rw [← List.forall_mem_flatMap, ← failures_eq_zero_iff, hall, failures_append]
    exact beq_iff_eq
  · intro hpaths
    have hlength : run.reports.length = job.files.length := by
      rw [← hpaths, List.length_map]
    show failures run.reports ≤ job.files.length
    rw [← hlength]
    exact List.countP_le_length

/-- A run on a checker of its own counts its own failures. -/
theorem failed_execute {files : Files} {start : WorkerStart}
    (h : c.execute files start = .ok result) : result.failed = failures result.reports := by
  have hcounts : Counts c.job [] (inOrder c.job files start) result := by
    apply counts_of_ok
    show ((inOrder (Checker.ofJob c.job).job files start).on (Checker.ofJob c.job)).1 = _
    rw [on_inOrder]
    exact h
  rw [hcounts.failed]
  exact Nat.zero_add _

end CheckRun

/-- A checker that is run again and again counts in each result the failures of all its runs. So a
result counts its own failures exactly if nothing failed before, and is a success exactly if nothing
has failed so far; a run on a checker of its own counts right. There is a result exactly if there
are files and workers and the workers start. -/
theorem failed_counts_all_runs (job : CheckJob) (runs : List CheckRun) (run : CheckRun) :
    ((∃ result, (run.on (CheckRun.after (.ofJob job) runs)).1 = .ok result) ↔
      job.Accepts run.handedIn) ∧
    (∀ result, (run.on (CheckRun.after (.ofJob job) runs)).1 = .ok result →
      CheckRun.Counts job runs run result) ∧
    ∀ files start result, (CheckRun.after (.ofJob job) runs).execute files start = .ok result →
      result.failed = FileReport.failures result.reports := by
  have hjob : (CheckRun.after (.ofJob job) runs).job = job := CheckRun.job_after _ runs
  refine ⟨?_, fun result => CheckRun.counts_of_ok,
    fun files start result => CheckRun.failed_execute⟩
  constructor
  · rintro ⟨result, hresult⟩
    rw [← hjob]
    exact (CheckRun.on_eq_ok hresult).1
  · intro haccepts
    rw [← hjob] at haccepts
    exact ⟨_, congrArg Prod.fst (CheckRun.on_of_accepted haccepts)⟩

/-- A missing file is checked twice: the second result counts two failures among one file. -/
theorem failed_counts_all_runs_twice :
    let files : Files := fun _ => .absent .notFound
    let job : CheckJob := ⟨["a.sql"], .mysql, 1, false⟩
    let run : CheckRun := .inOrder job files .granted
    job.Accepts run.handedIn ∧
      ∃ result, (run.on (CheckRun.after (.ofJob job) [run])).1 = .ok result ∧
        CheckRun.Counts job [run] run result ∧
        FileReport.failures result.reports = 1 ∧ result.processed = 1 ∧ result.failed = 2 := by
  intro files job run
  obtain ⟨hreturns, hcounts, -⟩ := failed_counts_all_runs job [run] run
  have haccepts : job.Accepts run.handedIn := ⟨by simp [job], Nat.one_ne_zero, _, rfl⟩
  have hfailures : FileReport.failures run.reports = 1 := by decide +kernel
  obtain ⟨result, hresult⟩ := hreturns.mpr haccepts
  have h := hcounts result hresult
  have hown : FileReport.failures result.reports = 1 := by rw [h.reports, hfailures]
  refine ⟨haccepts, result, hresult, h, hown, h.processed, ?_⟩
  rw [h.failed, hown, List.flatMap_singleton, hfailures]

end SqlLexis
