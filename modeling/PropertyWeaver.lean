import PropertyWeaver.Session
import PropertyWeaver.Settings.Options
import PropertyWeaver.Proofs.Trace
import PropertyWeaver.Proofs.Undisturbed
import PropertyWeaver.Proofs.Reading
import PropertyWeaver.Proofs.Coverage
import PropertyWeaver.Proofs.Hosts
import PropertyWeaver.Proofs.FileNames
import PropertyWeaver.Proofs.BaseClause
import PropertyWeaver.Proofs.Cancellation
import PropertyWeaver.Proofs.Failure
import PropertyWeaver.Proofs.Extension
import PropertyWeaver.Proofs.SideBySide
import PropertyWeaver.Proofs.Renderings
import PropertyWeaver.Proofs.Accounting
import PropertyWeaver.Proofs.Parts
import PropertyWeaver.Proofs.TypeIdentity
import PropertyWeaver.Proofs.History
import PropertyWeaver.Proofs.HiddenParts
import PropertyWeaver.Proofs.AcceptedSettings
import PropertyWeaver.Proofs.SafeNames
import PropertyWeaver.Proofs.Encodings
import PropertyWeaver.Proofs.NameSearch
import PropertyWeaver.Proofs.Verdicts
import PropertyWeaver.Proofs.Pruning
import PropertyWeaver.Proofs.FileOrder
import PropertyWeaver.Proofs.AnyPlans
import PropertyWeaver.Proofs.Nesting
import PropertyWeaver.Proofs.PropertyLines
import PropertyWeaver.Proofs.OptionSpellings
import PropertyWeaver.Proofs.CopiedUsings
import PropertyWeaver.Proofs.MarkerSpellings
import PropertyWeaver.Proofs.OptionFaults
import PropertyWeaver.Proofs.LogLines
import PropertyWeaver.Proofs.CandidateFilter
import PropertyWeaver.Proofs.RequiredUsings
import PropertyWeaver.Proofs.LogQueries
