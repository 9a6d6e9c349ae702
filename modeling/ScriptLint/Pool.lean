import ScriptLint.Run

/-! # Pools of workers

The files of a run may be analyzed by several workers at a time. They take the files from a common
queue, each of which goes to one worker, and hand in what they found together with the place of the
file in the list. Which worker takes what, and who is done first, is left open. When all workers are
gone, what was handed in is put in order.
-/

namespace ScriptLint

/-- A file to analyze. -/
structure Job where
  /-- The place of the file in the list. -/
  index : Nat
  path : String
deriving Repr, DecidableEq

/-- What a worker is at. -/
inductive Worker where
  | idle
  | busy (job : Job)
  | gone
deriving Repr, DecidableEq

/-- The file that a worker has in hand. -/
def Worker.job? : Worker → Option Job
  | busy job => some job
  | idle | gone => none

/-- The workers, with what is left to do and what was handed in so far. -/
structure Pool where
  /-- The files that no worker has taken. -/
  queue : List Job
  workers : List Worker
  /-- What was handed in, in the order in which it came. -/
  results : List (Nat × Except RunError Analysis) := []

namespace Pool

/-- The files of a list with their places. -/
def jobs (paths : List String) : List Job := paths.zipIdx.map fun (path, index) => { index, path }

/-- The beginning, when all files are in the queue and some number of workers is idle. -/
def start (workers : Nat) (paths : List String) : Pool :=
  { queue := jobs paths, workers := List.replicate workers .idle }

/-- A step of one of the workers, where `analyze` tells what comes of a file. An idle worker takes
any of the files of the queue, and it goes when there is none. -/
inductive Step (analyze : String → Except RunError Analysis) : Pool → Pool → Prop
  | take {p : Pool} {w : Nat} {job : Job} {before after : List Job} :
      p.workers[w]? = some .idle → p.queue = before ++ job :: after →
      Step analyze p { p with queue := before ++ after, workers := p.workers.set w (.busy job) }
  | handIn {p : Pool} {w : Nat} {job : Job} : p.workers[w]? = some (.busy job) →
      Step analyze p
        { p with
          workers := p.workers.set w .idle
          results := p.results ++ [(job.index, analyze job.path)] }
  | leave {p : Pool} {w : Nat} : p.workers[w]? = some .idle → p.queue = [] →
      Step analyze p { p with workers := p.workers.set w .gone }

/-- Some number of steps. -/
inductive Steps (analyze : String → Except RunError Analysis) : Nat → Pool → Pool → Prop
  | refl (p : Pool) : Steps analyze 0 p p
  | tail {n : Nat} {p p' p'' : Pool} : Steps analyze n p p' → Step analyze p' p'' →
      Steps analyze (n + 1) p p''

/-- All workers are gone. -/
def IsDone (p : Pool) : Prop := ∀ worker ∈ p.workers, worker = .gone

/-- Why there are no reports in the end. -/
inductive Failure where
  /-- Nothing was handed in for a file. -/
  | lost
  | run (reason : RunError)
deriving Repr, DecidableEq

/-- What was handed in, by the places of the files. -/
def slots (p : Pool) (count : Nat) : List (Option (Except RunError Analysis)) :=
  p.results.foldl (fun slots (index, result) => slots.set index (some result))
    (List.replicate count none)

/-- The report on a file for which something was handed in or not. -/
def report (path : String) : Option (Except RunError Analysis) → Except Failure FileReport
  | none => .error .lost
  | some (.error reason) => .error (.run reason)
  | some (.ok analysis) => .ok { path, analysis }

/-- The reports in the order of the files, or what is wrong with the first one that has none. -/
def collect (paths : List String) (p : Pool) : Except Failure (List FileReport) :=
  (paths.zip (p.slots paths.length)).mapM fun (path, slot?) => report path slot?

end Pool

namespace Run

variable {m : Type → Type} [Monad m]

/-- The settings of a run and the files that it analyzes. -/
def task (files : Files m) (c : Command) : ExceptT RunError m (Settings × List String) := do
  let s ← settings files c
  let found ← c.paths.mapM (expand files)
  pure (s, found.flatten)

end Run

/-- What a run comes to that has the reports on its files. -/
def Outcome.ofReports (reporter : Reporter) (reports : List FileReport) : Outcome :=
  { fileCount := reports.length
    status := (Totals.ofReports reports).exitCode
    output := reporter.render reports }

/-- What a file comes to, where files do not change. -/
def Files.analysis (files : Files Id) (s : Settings) (path : String) : Except RunError Analysis :=
  match files.read path with
  | .ok bytes => .ok (.ofBytes bytes s.options s.known)
  | .error reason => .error (.unreadable path reason)

/-- What a run may come to whose files are analyzed by a pool, on a machine that runs `available`
workers at a time. -/
inductive Pool.Yields (files : Files Id) (available : Nat) (c : Command) :
    Except Failure Outcome → Prop
  | refused {reason : RunError} : Run.task files c = .error reason →
      Yields files available c (.error (.run reason))
  | done {s : Settings} {paths : List String} {n : Nat} {p : Pool} :
      Run.task files c = .ok (s, paths) →
      Steps (files.analysis s) n (start (Command.workers c.jobs? available paths.length) paths) p →
      p.IsDone → Yields files available c (Outcome.ofReports c.reporter <$> p.collect paths)

end ScriptLint
