import StatesLang.Main
import StatesLang.Proofs.Evaluation.Footprint
import StatesLang.Proofs.Evaluation.Payloads
import StatesLang.Proofs.Operators
import StatesLang.Proofs.PathParameter
import StatesLang.Proofs.Reachability
import StatesLang.Proofs.RoundTrip.Accepted
import StatesLang.Proofs.RoundTrip.Call
import StatesLang.Proofs.RoundTrip.Canonical
import StatesLang.Proofs.RoundTrip.Path
import StatesLang.Proofs.RoundTrip.Representable
import StatesLang.Proofs.Templates
import StatesLang.Proofs.Walk
import StatesLang.Proofs.Evaluation.Strict
import StatesLang.Proofs.Comparison.Equality
import StatesLang.Proofs.Evaluation.Sources
import StatesLang.Proofs.Evaluation.Format
import StatesLang.Proofs.Comparison.Conditions
import StatesLang.Proofs.Evaluation.Placeholders
import StatesLang.Proofs.Wildcard
import StatesLang.Proofs.Evaluation.Range
import StatesLang.Proofs.Evaluation.Sums
import StatesLang.Proofs.Merge
import StatesLang.Proofs.RoundTrip.Address
import StatesLang.Proofs.Grammar.Groups
import StatesLang.Proofs.Grammar.Limit
import StatesLang.Proofs.RoundTrip.Built
import StatesLang.Proofs.Evaluation.Shape
import StatesLang.Proofs.Comparison.Distinct
import StatesLang.Proofs.Evaluation.Edits
import StatesLang.Proofs.Evaluation.Losses
import StatesLang.Proofs.Faults.Absence
import StatesLang.Proofs.Exploration
import StatesLang.Proofs.Comparison.Integers
