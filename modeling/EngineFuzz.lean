import EngineFuzz.Coverage.Json
import EngineFuzz.Json.Writer
import EngineFuzz.Profile.Spec
import EngineFuzz.Program.Json
import EngineFuzz.Program.Scope
import EngineFuzz.Program.Tree
import EngineFuzz.Session.Readiness
import EngineFuzz.Session.Run
import EngineFuzz.Proofs.Builder.Step
import EngineFuzz.Proofs.Builder.WellFormed
import EngineFuzz.Proofs.Session.Transcript
import EngineFuzz.Proofs.Session.Scripts
import EngineFuzz.Proofs.Coverage.Reach
import EngineFuzz.Proofs.Session.History
import EngineFuzz.Proofs.Session.Novelty
import EngineFuzz.Proofs.Program.Typing
import EngineFuzz.Proofs.Random.Draw
import EngineFuzz.Proofs.Builder.Arguments
import EngineFuzz.Proofs.Generator.Snippet
import EngineFuzz.Proofs.Generator.Typing
import EngineFuzz.Proofs.Session.Typed
import EngineFuzz.Proofs.Generator.Registry
import EngineFuzz.Proofs.Profile.Layering
import EngineFuzz.Proofs.Generator.Completion
import EngineFuzz.Proofs.Session.Failure
import EngineFuzz.Proofs.Session.Merge
import EngineFuzz.Proofs.Program.Layout
import EngineFuzz.Proofs.Generator.Roster
import EngineFuzz.Proofs.Json.Double
import EngineFuzz.Proofs.Program.Bounded
import EngineFuzz.Proofs.Session.Bounded
import EngineFuzz.Proofs.Json.Text
import EngineFuzz.Proofs.Json.Depth
import EngineFuzz.Proofs.Json.Agreement
import EngineFuzz.Proofs.Ty.Json
import EngineFuzz.Proofs.Program.Json
import EngineFuzz.Proofs.Json.Table
import EngineFuzz.Proofs.Json.Omission
import EngineFuzz.Proofs.Profile.Spec
import EngineFuzz.Proofs.Builder.Moments
import EngineFuzz.Proofs.Builder.Visibility
import EngineFuzz.Proofs.Builder.Replay
import EngineFuzz.Proofs.Builder.Offer
import EngineFuzz.Proofs.Ty.Substitution
import EngineFuzz.Proofs.Generator.Progress
import EngineFuzz.Proofs.Outcome.Classification
import EngineFuzz.Proofs.Session.Turns
import EngineFuzz.Proofs.Session.Extension
import EngineFuzz.Proofs.Program.Reading
import EngineFuzz.Proofs.Coverage.Log
import EngineFuzz.Proofs.Program.LoopCalls
import EngineFuzz.Proofs.Coverage.Aspects
import EngineFuzz.Proofs.Session.Readiness
import EngineFuzz.Proofs.Random.Seed
import EngineFuzz.Proofs.Ty.Text
import EngineFuzz.Proofs.Session.Calls
