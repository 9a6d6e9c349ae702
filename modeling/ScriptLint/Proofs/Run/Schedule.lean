import Mathlib.Algebra.GroupWithZero.Nat
import Mathlib.Data.List.Perm.Basic
import ScriptLint.Pool

/-! # Schedules

Whatever the workers of a pool do in turn, every file is in the queue, in the hand of one worker, or
handed in. A worker goes only when the queue is empty, so once all are gone every file was handed in
once, at its own place. The reports are then those of the files in their order, whoever was done
first.
-/

namespace ScriptLint

theorem Command.workers_pos (jobs? : Option Nat) (available files : Nat) :
    0 < Command.workers jobs? available files := Nat.le_max_right _ 1

namespace Worker

/-- How many steps a worker has still to take if it takes no more files. -/
def effort : Worker → Nat
  | idle => 1
  | busy _ => 2
  | gone => 0

end Worker

namespace Pool

variable {analyze : String → Except RunError Analysis} {paths : List String} {p p' : Pool}

/-- The files that are in the hand of a worker. -/
def inHand (p : Pool) : List Job := p.workers.filterMap Worker.job?

/-- What a step does to the one worker that takes it. -/
theorem exists_split {workers : List Worker} {w : Nat} {worker : Worker}
    (hworker : workers[w]? = some worker) :
    ∃ before after, workers = before ++ worker :: after ∧
      ∀ new, workers.set w new = before ++ new :: after := by
  obtain ⟨hlt, rfl⟩ := List.getElem?_eq_some_iff.mp hworker
  refine ⟨workers.take w, workers.drop (w + 1), ?_, fun new => ?_⟩
  · rw [← List.drop_eq_getElem_cons hlt, List.take_append_drop]
  · rw [List.set_eq_take_append_cons_drop, if_pos hlt]

/-! ## Every schedule ends -/

/-- How many steps are still to be taken. -/
def effort (p : Pool) : Nat := 2 * p.queue.length + (p.workers.map Worker.effort).sum

theorem sum_effort_split (before after : List Worker) (worker : Worker) :
    ((before ++ worker :: after).map Worker.effort).sum =
      (before.map Worker.effort).sum + (worker.effort + (after.map Worker.effort).sum) := by
  simp

theorem Step.effort_eq (hstep : Step analyze p p') : p'.effort + 1 = p.effort := by
  cases hstep with
  | take hworker hqueue =>
      obtain ⟨before, after, hworkers, hset⟩ := exists_split hworker
      simp only [effort, hset, List.length_append, sum_effort_split]
      rw [hqueue, hworkers, sum_effort_split]
      simp only [List.length_append, List.length_cons, Worker.effort]
      omega
  | handIn hworker =>
      obtain ⟨before, after, hworkers, hset⟩ := exists_split hworker
      simp only [effort, hset, sum_effort_split]
      rw [hworkers, sum_effort_split]
      simp only [Worker.effort]
      omega
  | leave hworker hqueue =>
      obtain ⟨before, after, hworkers, hset⟩ := exists_split hworker
      simp only [effort, hset, sum_effort_split]
      rw [hworkers, sum_effort_split]
      simp only [Worker.effort]
      omega

/-- The number of steps that were taken is the number that there are fewer to take. -/
theorem Steps.effort_eq {n : Nat} (hsteps : Steps analyze n p p') : p'.effort + n = p.effort := by
  induction hsteps with
  | refl => rfl
  | tail hsteps hstep ih =>
      have hlast := hstep.effort_eq
      omega

theorem effort_start (workers : Nat) (paths : List String) :
    (start workers paths).effort = 2 * paths.length + workers := by
  simp [effort, start, jobs, Worker.effort]

/-- As long as some worker is there, one of them can take a step. -/
theorem exists_step_of_not_isDone (analyze : String → Except RunError Analysis)
    (hdone : ¬ p.IsDone) : ∃ p', Step analyze p p' := by
  simp only [IsDone, not_forall] at hdone
  obtain ⟨worker, hmem, hthere⟩ := hdone
  obtain ⟨w, hworker⟩ := List.mem_iff_getElem?.mp hmem
  cases worker with
  | gone => exact absurd rfl hthere
  | busy job => exact ⟨_, .handIn hworker⟩
  | idle =>
      cases hqueue : p.queue with
      | nil => exact ⟨_, .leave hworker hqueue⟩
      | cons job rest => exact ⟨_, .take hworker (hqueue.trans (List.nil_append _).symm)⟩

/-- Whatever was done so far, the pool comes to an end. -/
theorem exists_steps_isDone (analyze : String → Except RunError Analysis) (p : Pool) :
    ∃ n p', Steps analyze n p p' ∧ p'.IsDone := by
  suffices h : ∀ k n q, Steps analyze n p q → q.effort = k →
      ∃ n p', Steps analyze n p p' ∧ p'.IsDone from h _ 0 p (.refl p) rfl
  intro k
  induction k with
  | zero =>
      intro n q hsteps hzero
      refine ⟨n, q, hsteps, by_contra fun hdone => ?_⟩
      obtain ⟨q', hstep⟩ := exists_step_of_not_isDone analyze hdone
      have hlast := hstep.effort_eq
      omega
  | succ k ih =>
      intro n q hsteps hk
      by_cases hdone : q.IsDone
      · exact ⟨n, q, hsteps, hdone⟩
      · obtain ⟨q', hstep⟩ := exists_step_of_not_isDone analyze hdone
        have hlast := hstep.effort_eq
        exact ih (n + 1) q' (.tail hsteps hstep) (by omega)

/-! ## Every file is accounted for -/

/-- Each of the files is in the queue, in the hand of a worker, or handed in, and in one of these
places only. A worker is gone only if nothing is left in the queue. -/
structure Accounts (analyze : String → Except RunError Analysis) (paths : List String) (p : Pool) :
    Prop where
  handedIn : ∃ done : List Job,
    p.results = done.map (fun job => (job.index, analyze job.path)) ∧
      (p.queue ++ p.inHand ++ done).Perm (jobs paths)
  gone : .gone ∈ p.workers → p.queue = []

theorem filterMap_split (before after : List Worker) (worker : Worker) :
    (before ++ worker :: after).filterMap Worker.job? =
      before.filterMap Worker.job? ++ (worker.job?.toList ++ after.filterMap Worker.job?) := by
  rw [List.filterMap_append, List.filterMap_cons]
  cases worker.job? <;> rfl

theorem Accounts.start (workers : Nat) : Accounts analyze paths (start workers paths) where
  handedIn := by
    have hidle : (List.replicate workers Worker.idle).filterMap Worker.job? = [] := by
      simp [List.filterMap_replicate, Worker.job?]
    exact ⟨[], rfl, by simp [Pool.start, inHand, hidle]⟩
  gone hmem := by simp [Pool.start] at hmem

theorem Accounts.step (hp : Accounts analyze paths p) (hstep : Step analyze p p') :
    Accounts analyze paths p' := by
  obtain ⟨⟨done, hresults, hperm⟩, hgone⟩ := hp
  cases hstep with
  | @take w job first rest hworker hqueue =>
      obtain ⟨before, after, hworkers, hset⟩ := exists_split hworker
      refine ⟨⟨done, hresults, ?_⟩, fun hmem => ?_⟩
      · -- The file goes from the queue into a hand.
        refine List.Perm.trans (.append_right done ?_) hperm
        simp only [inHand, hset]
        rw [hworkers, hqueue, filterMap_split, filterMap_split]
        simp only [Worker.job?, Option.toList, List.nil_append, List.cons_append,
          List.append_assoc]
        refine List.Perm.append_left first ?_
        rw [← List.append_assoc]
        exact List.perm_middle.trans (.of_eq (by simp))
      · -- Some file was in the queue, so no worker was gone.
        have hthere : .gone ∈ p.workers := by
          rw [hset] at hmem
          rw [hworkers]
          simpa using hmem
        have hnil := hgone hthere
        simp [hqueue] at hnil
  | @handIn w job hworker =>
      obtain ⟨before, after, hworkers, hset⟩ := exists_split hworker
      refine ⟨⟨done ++ [job], by simp [hresults], ?_⟩, fun hmem => ?_⟩
      · refine List.Perm.trans ?_ hperm
        simp only [inHand, hset]
        rw [hworkers, filterMap_split, filterMap_split]
        simp only [Worker.job?, Option.toList, List.nil_append, List.cons_append,
          List.append_assoc]
        refine List.Perm.append_left p.queue (List.Perm.append_left _ ?_)
        rw [← List.append_assoc]
        exact List.perm_append_singleton job _
      · refine hgone ?_
        rw [hset] at hmem
        rw [hworkers]
        simpa using hmem
  | @leave w hworker hqueue =>
      obtain ⟨before, after, hworkers, hset⟩ := exists_split hworker
      refine ⟨⟨done, hresults, ?_⟩, fun _ => hqueue⟩
      simp only [inHand, hset]
      rw [inHand, hworkers, filterMap_split] at hperm
      rw [filterMap_split]
      exact hperm

theorem Accounts.steps {n : Nat} (hp : Accounts analyze paths p) (hsteps : Steps analyze n p p') :
    Accounts analyze paths p' := by
  induction hsteps with
  | refl => exact hp
  | tail hsteps hstep ih => exact (ih hp).step hstep

theorem Step.length_workers (hstep : Step analyze p p') :
    p'.workers.length = p.workers.length := by
  cases hstep <;> simp

theorem Steps.length_workers {n : Nat} (hsteps : Steps analyze n p p') :
    p'.workers.length = p.workers.length := by
  induction hsteps with
  | refl => rfl
  | tail hsteps hstep ih => exact hstep.length_workers.trans ih

/-- Once all workers are gone, and there was one, every file was handed in. -/
theorem Accounts.perm_of_isDone (hp : Accounts analyze paths p) (hdone : p.IsDone)
    (hworkers : 0 < p.workers.length) :
    ∃ done : List Job, p.results = done.map (fun job => (job.index, analyze job.path)) ∧
      done.Perm (jobs paths) := by
  obtain ⟨⟨done, hresults, hperm⟩, hgone⟩ := hp
  obtain ⟨worker, hmem⟩ := List.exists_mem_of_length_pos hworkers
  have hqueue : p.queue = [] := hgone (hdone worker hmem ▸ hmem)
  have hhand : p.inHand = [] := by
    refine List.filterMap_eq_nil_iff.mpr fun worker hmem => ?_
    rw [hdone worker hmem]
    rfl
  exact ⟨done, hresults, by simpa [hqueue, hhand] using hperm⟩

/-! ## The reports in order -/

/-- What is put into a place stays there, if each place is used once. -/
theorem getElem?_foldl_set {α : Type} {results : List (Nat × α)} {slots : List (Option α)}
    (hnodup : (results.map (·.1)).Nodup) {index : Nat} {result : α}
    (hmem : (index, result) ∈ results) (hindex : index < slots.length) :
    (results.foldl (fun slots (index, result) => slots.set index (some result)) slots)[index]? =
      some (some result) := by
  induction results generalizing slots with
  | nil => cases hmem
  | cons head rest ih =>
      obtain ⟨hhead, hrest⟩ := List.nodup_cons.mp hnodup
      rcases List.mem_cons.mp hmem with rfl | hmem
      · -- The places that are used later are other ones.
        have hother : ∀ (slots : List (Option α)),
            (rest.foldl (fun slots (index, result) => slots.set index (some result))
              slots)[index]? = slots[index]? := by
          clear ih hmem hindex hnodup hrest
          induction rest with
          | nil => intro slots; rfl
          | cons next rest ih =>
              intro slots
              obtain ⟨hne, hrest⟩ := not_or.mp (mt List.mem_cons.mpr hhead)
              exact (ih hrest _).trans (List.getElem?_set_ne (Ne.symm hne))
        rw [List.foldl_cons, hother]
        exact List.getElem?_set_self hindex
      · exact ih hrest hmem (by simpa using hindex)

theorem map_index_jobs (paths : List String) :
    (jobs paths).map (·.index) = List.range paths.length := by
  simp [jobs, Function.comp_def, List.zipIdx_map_snd, List.range_eq_range']

theorem length_foldl_set {α : Type} (results : List (Nat × α)) (slots : List (Option α)) :
    (results.foldl (fun slots (index, result) => slots.set index (some result)) slots).length =
      slots.length := by
  induction results generalizing slots with
  | nil => rfl
  | cons head rest ih => simpa using ih (slots.set head.1 (some head.2))

theorem length_slots (p : Pool) (count : Nat) : (p.slots count).length = count :=
  (length_foldl_set p.results _).trans List.length_replicate

/-- Where every file was handed in once, each place holds what its file comes to. -/
theorem slots_eq {done : List Job}
    (hresults : p.results = done.map fun job => (job.index, analyze job.path))
    (hdone : done.Perm (jobs paths)) :
    p.slots paths.length = paths.map fun path => some (analyze path) := by
  have hnodup : (p.results.map (·.1)).Nodup := by
    have hperm := hdone.map (·.index)
    rw [map_index_jobs] at hperm
    simpa [hresults, Function.comp_def] using hperm.nodup_iff.mpr List.nodup_range
  refine List.ext_getElem (by simp [length_slots]) fun index hlt hlt' => ?_
  have hindex : index < paths.length := by simpa [length_slots] using hlt
  have hmem : (index, analyze paths[index]) ∈ p.results := by
    have hjob : (⟨index, paths[index]⟩ : Job) ∈ jobs paths :=
      List.mem_map.mpr ⟨(paths[index], index), List.mk_mem_zipIdx_iff_getElem?.mpr (by simp), rfl⟩
    rw [hresults]
    exact List.mem_map.mpr ⟨_, hdone.mem_iff.mpr hjob, rfl⟩
  have hslot : (p.slots paths.length)[index]? = some (some (analyze paths[index])) :=
    getElem?_foldl_set hnodup hmem (by simpa using hindex)
  rw [List.getElem_map]
  exact (List.getElem?_eq_some_iff.mp hslot).2

theorem collect_eq_mapM
    (hslots : p.slots paths.length = paths.map fun path => some (analyze path)) :
    p.collect paths = paths.mapM fun path => report path (some (analyze path)) := by
  unfold collect
  rw [hslots]
  clear hslots
  induction paths with
  | nil => rfl
  | cons path rest ih => simp [List.mapM_cons, ih]

/-- Whatever the schedule was, every file was handed in by the end. -/
theorem results_of_steps {workers n : Nat} (hworkers : 0 < workers)
    (hsteps : Steps analyze n (start workers paths) p) (hdone : p.IsDone) :
    ∃ done : List Job, p.results = done.map (fun job => (job.index, analyze job.path)) ∧
      done.Perm (jobs paths) := by
  have hlength : 0 < p.workers.length := by
    rw [hsteps.length_workers]
    simpa [start] using hworkers
  exact ((Accounts.start workers).steps hsteps).perm_of_isDone hdone hlength

/-- The reports are those of the files in their order. -/
theorem collect_of_steps {workers n : Nat} (hworkers : 0 < workers)
    (hsteps : Steps analyze n (start workers paths) p) (hdone : p.IsDone) :
    p.collect paths = paths.mapM fun path => report path (some (analyze path)) := by
  obtain ⟨done, hresults, hperm⟩ := results_of_steps hworkers hsteps hdone
  exact collect_eq_mapM (slots_eq hresults hperm)

/-! ## Runs -/

variable {files : Files Id} {s : Settings}

/-- A report on a file is what a run makes of it alone. -/
theorem report_analysis (files : Files Id) (s : Settings) (path : String) :
    report path (some (files.analysis s path)) =
      ((Run.analyze files s path).run : Except RunError FileReport).mapError .run := by
  unfold Files.analysis Run.analyze Run.readFile
  cases files.read path <;> simp <;> rfl

theorem mapError_bind {α β : Type} (first : ExceptT RunError Id α)
    (next : α → ExceptT RunError Id β) :
    ((first >>= next).run : Except RunError β).mapError Failure.run =
      (first.run : Except RunError α).mapError Failure.run >>= fun a =>
        ((next a).run : Except RunError β).mapError Failure.run := by
  rcases first with _ | _ <;> rfl

theorem mapM_report (paths : List String) :
    (paths.mapM fun path => report path (some (files.analysis s path))) =
      ((paths.mapM (Run.analyze files s)).run : Except RunError (List FileReport)).mapError
        .run := by
  induction paths with
  | nil => rfl
  | cons path rest ih =>
      rw [List.mapM_cons, List.mapM_cons, report_analysis, ih, mapError_bind]
      refine congrArg _ (funext fun report => ?_)
      rw [mapError_bind]
      rfl

/-- A run has a task, analyzes its files, and puts the reports together. -/
theorem run_eq_bind (files : Files Id) (c : Command) :
    run files c = (Run.task files c >>= fun (s, paths) => paths.mapM (Run.analyze files s)) >>=
      fun reports => Pure.pure (Outcome.ofReports c.reporter reports) := by
  have hreports : Run.reports files c = Run.task files c >>= fun (s, paths) =>
      paths.mapM (Run.analyze files s) := by simp [Run.reports, Run.task]
  rw [← hreports]
  rfl

/-- A run analyzes the files of its task one after the other. -/
theorem run_eq_of_task {c : Command} {paths : List String}
    (htask : Run.task files c = .ok (s, paths)) :
    ((run files c).run : Except RunError Outcome).mapError Failure.run =
      Outcome.ofReports c.reporter <$>
        paths.mapM fun path => report path (some (files.analysis s path)) := by
  rw [mapM_report, run_eq_bind, mapError_bind, mapError_bind, htask]
  rfl

theorem run_eq_of_refused {c : Command} {reason : RunError}
    (htask : Run.task files c = .error reason) : (run files c).run = .error reason := by
  rw [run_eq_bind, htask]
  rfl

/-! ## What a pool delivers -/

/-- A pool whose workers are gone has a report for each file, in the order of the files, unless one
cannot be read; then it tells of the first one that cannot. -/
structure Delivers (files : Files Id) (s : Settings) (paths : List String) (p : Pool) : Prop where
  /-- For every file something was handed in once. -/
  once : (p.results.map (·.1)).Perm (List.range paths.length)
  readable : ∀ contents : List ByteArray,
    List.Forall₂ (fun path bytes => files.read path = .ok bytes) paths contents →
      p.collect paths = .ok (paths.zipWith
        (fun path bytes => { path, analysis := .ofBytes bytes s.options s.known }) contents)
  unreadable : ∀ (before after : List String) (path : String) (reason : ReadError),
    paths = before ++ path :: after →
      (∀ earlier ∈ before, ∃ bytes, files.read earlier = .ok bytes) →
      files.read path = .error reason →
        p.collect paths = .error (.run (.unreadable path reason))

theorem report_of_read {path : String} {bytes : ByteArray} (hread : files.read path = .ok bytes) :
    report path (some (files.analysis s path)) =
      .ok { path, analysis := .ofBytes bytes s.options s.known } := by
  simp only [Files.analysis, hread]
  rfl

theorem mapM_report_of_readable {contents : List ByteArray}
    (hreads : List.Forall₂ (fun path bytes => files.read path = .ok bytes) paths contents) :
    (paths.mapM fun path => report path (some (files.analysis s path))) =
      .ok (paths.zipWith
        (fun path bytes => { path, analysis := .ofBytes bytes s.options s.known }) contents) := by
  induction hreads with
  | nil => rfl
  | cons hread hreads ih =>
      rw [List.mapM_cons, report_of_read hread, ih]
      rfl

theorem mapM_report_of_unreadable {before after : List String} {path : String} {reason : ReadError}
    (hbefore : ∀ earlier ∈ before, ∃ bytes, files.read earlier = .ok bytes)
    (hread : files.read path = .error reason) :
    ((before ++ path :: after).mapM fun path => report path (some (files.analysis s path))) =
      .error (.run (.unreadable path reason)) := by
  induction before with
  | nil =>
      have hreport : report path (some (files.analysis s path)) =
          .error (.run (.unreadable path reason)) := by
        simp only [Files.analysis, hread]
        rfl
      rw [List.nil_append, List.mapM_cons, hreport]
      rfl
  | cons earlier before ih =>
      obtain ⟨bytes, hearlier⟩ := hbefore earlier List.mem_cons_self
      rw [List.cons_append, List.mapM_cons, report_of_read hearlier,
        ih fun path hmem => hbefore path (List.mem_cons_of_mem earlier hmem)]
      rfl

theorem delivers_of_steps {workers n : Nat} (hworkers : 0 < workers)
    (hsteps : Steps (files.analysis s) n (start workers paths) p) (hdone : p.IsDone) :
    p.Delivers files s paths := by
  have hcollect := collect_of_steps hworkers hsteps hdone
  refine ⟨?_, fun contents hreads => ?_, fun before after path reason hpaths hbefore hread => ?_⟩
  · obtain ⟨done, hresults, hperm⟩ := results_of_steps hworkers hsteps hdone
    rw [hresults, List.map_map, ← map_index_jobs]
    exact hperm.map (·.index)
  · rw [hcollect]
    exact mapM_report_of_readable hreads
  · rw [hcollect]
    subst hpaths
    exact mapM_report_of_unreadable hbefore hread

/-- On unchanging files every schedule of the workers ends, however many there are, and delivers the
same: the reports in the order of the files, or the first fault. So what a run prints, and its
status, depend neither on the number of workers nor on the schedule. -/
theorem order_independent (files : Files Id) (available : Nat) :
    (∀ (s : Settings) (paths : List String) (jobs? : Option Nat) (n : Nat) (p : Pool),
      Steps (files.analysis s) n (start (Command.workers jobs? available paths.length) paths) p →
        n ≤ 2 * paths.length + Command.workers jobs? available paths.length ∧
        (¬ p.IsDone → ∃ p', Step (files.analysis s) p p') ∧
        (p.IsDone → p.Delivers files s paths)) ∧
      ∀ (c : Command) (jobs? : Option Nat) (result : Except Failure Outcome),
        Yields files available { c with jobs? } result ↔
          result = ((run files c).run : Except RunError Outcome).mapError .run := by
  refine ⟨fun s paths jobs? n p hsteps => ⟨?_, exists_step_of_not_isDone _, fun hdone => ?_⟩,
    fun c jobs? result => ⟨fun hyields => ?_, ?_⟩⟩
  · have heffort := hsteps.effort_eq
    rw [effort_start] at heffort
    omega
  · exact delivers_of_steps (Command.workers_pos ..) hsteps hdone
  · -- The number of workers is not looked at by the task and by the report.
    have htask : Run.task files { c with jobs? } = Run.task files c := rfl
    rcases hyields with ⟨hrefused⟩ | ⟨hpaths, hsteps, hdone⟩
    · rw [run_eq_of_refused (htask ▸ hrefused)]
      rfl
    · rw [run_eq_of_task (htask ▸ hpaths), collect_of_steps (Command.workers_pos ..) hsteps hdone]
      rfl
  · rintro rfl
    have htask : Run.task files { c with jobs? } = Run.task files c := rfl
    rcases h : (Run.task files c : Except RunError (Settings × List String)) with
      reason | ⟨s, paths⟩
    · rw [run_eq_of_refused h]
      exact .refused (htask ▸ h)
    · obtain ⟨n, p, hsteps, hdone⟩ := exists_steps_isDone (files.analysis s)
        (start (Command.workers jobs? available paths.length) paths)
      rw [run_eq_of_task h, ← collect_of_steps (Command.workers_pos ..) hsteps hdone]
      have hother : Run.task files { c with jobs? } = .ok (s, paths) := htask ▸ h
      exact .done hother hsteps hdone

/-- Two files that are empty. -/
def twoFiles : Files Id where
  list _ := some .file
  read _ := .ok .empty

/-- Of two workers the second one takes the first file, and the first one is done before it: the
second file is handed in first, and reported second. -/
theorem order_independent_overtaken :
    ∃ p, Steps (twoFiles.analysis {}) 6
        (start (Command.workers (some 2) 1 2) ["a.js", "b.js"]) p ∧
      p.IsDone ∧ p.results.map (·.1) = [1, 0] ∧
      p.collect ["a.js", "b.js"] =
        .ok [⟨"a.js", .ofBytes .empty {} {}⟩, ⟨"b.js", .ofBytes .empty {} {}⟩] := by
  let analyze := twoFiles.analysis {}
  let first : Job := ⟨0, "a.js"⟩
  let second : Job := ⟨1, "b.js"⟩
  have htaken : Steps analyze 2 (start (Command.workers (some 2) 1 2) ["a.js", "b.js"])
      ⟨[], [.busy second, .busy first], []⟩ :=
    .tail (.tail (.refl _) (@Step.take _ _ 1 first [] [second] rfl rfl))
      (@Step.take _ _ 0 second [] [] rfl rfl)
  have hovertaken : Steps analyze 4 (start (Command.workers (some 2) 1 2) ["a.js", "b.js"])
      ⟨[], [.idle, .idle], [(1, analyze "b.js"), (0, analyze "a.js")]⟩ :=
    .tail (.tail htaken (@Step.handIn _ _ 0 second rfl)) (@Step.handIn _ _ 1 first rfl)
  have hsteps : Steps analyze 6 (start (Command.workers (some 2) 1 2) ["a.js", "b.js"])
      ⟨[], [.gone, .gone], [(1, analyze "b.js"), (0, analyze "a.js")]⟩ :=
    .tail (.tail hovertaken (.leave (w := 0) rfl rfl)) (.leave (w := 1) rfl rfl)
  have hdone : IsDone ⟨[], [.gone, .gone], [(1, analyze "b.js"), (0, analyze "a.js")]⟩ := by
    simp [IsDone]
  have hdelivers :=
    ((order_independent twoFiles 1).1 {} ["a.js", "b.js"] (some 2) 6 _ hsteps).2.2 hdone
  refine ⟨_, hsteps, hdone, rfl, ?_⟩
  exact hdelivers.readable [.empty, .empty] (.cons rfl (.cons rfl .nil))

end Pool

end ScriptLint
