import EngineFuzz.Coverage.Basic

/-!
The archive of a worker, which tells the runs worth keeping. A run is kept if its aspects are new and
it crashed, reached new edges, or failed with a new diagnostic.
-/

namespace EngineFuzz

structure Archive where
  /-- The aspects of the runs kept. -/
  aspects : List Aspects
  /-- The diagnostics met. -/
  diagnostics : List String

namespace Archive

def empty : Archive := ⟨[], []⟩

def keep (archive : Archive) (aspects : Aspects) : Archive :=
  { archive with aspects := aspects :: archive.aspects }

/-- Remembers a diagnostic. The flag tells whether it is new. -/
def meet (archive : Archive) (diagnostic : String) : Bool × Archive :=
  if archive.diagnostics.contains diagnostic then (false, archive)
  else (true, { archive with diagnostics := diagnostic :: archive.diagnostics })

/-- Whether to keep a run, and what to remember of it. A run with the aspects of one kept before is
passed over without a look at its diagnostic. -/
def judge (archive : Archive) (aspects : Aspects) : Bool × Archive :=
  if archive.aspects.contains aspects then (false, archive)
  else
    match aspects.outcome with
    | .crashed _ => (true, archive.keep aspects)
    | .failed diagnostic =>
      let (isNew, archive) := archive.meet diagnostic
      if isNew || aspects.reachesNew then (true, archive.keep aspects) else (false, archive)
    | .succeeded | .timedOut =>
      if aspects.reachesNew then (true, archive.keep aspects) else (false, archive)

end Archive

end EngineFuzz
