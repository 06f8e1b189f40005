import OccurrenceQuery.Main
import OccurrenceQuery.Proofs.ByteOrder
import OccurrenceQuery.Proofs.Calendar.DayNumber
import OccurrenceQuery.Proofs.Calendar.Period
import OccurrenceQuery.Proofs.Calendar.Precision
import OccurrenceQuery.Proofs.Calendar.Recognition
import OccurrenceQuery.Proofs.Calendar.Span
import OccurrenceQuery.Proofs.Command.Validate
import OccurrenceQuery.Proofs.Command.Verdict
import OccurrenceQuery.Proofs.Distance
import OccurrenceQuery.Proofs.Distance.Comparison
import OccurrenceQuery.Proofs.Distance.RoundTrip
import OccurrenceQuery.Proofs.Distance.Unit
import OccurrenceQuery.Proofs.Geometry.Acceptance
import OccurrenceQuery.Proofs.Geometry.Apart
import OccurrenceQuery.Proofs.Geometry.Area
import OccurrenceQuery.Proofs.Geometry.Change
import OccurrenceQuery.Proofs.Geometry.Coordinates
import OccurrenceQuery.Proofs.Geometry.HoleOverlap
import OccurrenceQuery.Proofs.Geometry.Holes
import OccurrenceQuery.Proofs.Geometry.Nearby
import OccurrenceQuery.Proofs.Geometry.Overlap
import OccurrenceQuery.Proofs.Geometry.Parts
import OccurrenceQuery.Proofs.Geometry.RayCasting
import OccurrenceQuery.Proofs.Geometry.ReadingOrder
import OccurrenceQuery.Proofs.Geometry.Relisting
import OccurrenceQuery.Proofs.Geometry.Repeats
import OccurrenceQuery.Proofs.Geometry.Reversal
import OccurrenceQuery.Proofs.Geometry.Sides
import OccurrenceQuery.Proofs.Geometry.SignedArea
import OccurrenceQuery.Proofs.Geometry.Simple
import OccurrenceQuery.Proofs.Geometry.Translation
import OccurrenceQuery.Proofs.Geometry.Wkt.Agreement
import OccurrenceQuery.Proofs.Geometry.Wkt.Fault
import OccurrenceQuery.Proofs.Geometry.Wkt.Lexeme
import OccurrenceQuery.Proofs.Geometry.Wkt.Outline
import OccurrenceQuery.Proofs.Geometry.Wkt.Reader
import OccurrenceQuery.Proofs.Geometry.Wkt.Refusal
import OccurrenceQuery.Proofs.Geometry.Wkt.Shape
import OccurrenceQuery.Proofs.Geometry.Wkt.UpperCase
import OccurrenceQuery.Proofs.LookAlike
import OccurrenceQuery.Proofs.Message.Check
import OccurrenceQuery.Proofs.Message.Fault
import OccurrenceQuery.Proofs.Number.Infinity
import OccurrenceQuery.Proofs.Number.Magnitude
import OccurrenceQuery.Proofs.Number.Order
import OccurrenceQuery.Proofs.Number.Overflow
import OccurrenceQuery.Proofs.Number.Rounding
import OccurrenceQuery.Proofs.Number.Sum
import OccurrenceQuery.Proofs.Parameter.Catalogue
import OccurrenceQuery.Proofs.Parameter.Registry
import OccurrenceQuery.Proofs.Range.Bounds
import OccurrenceQuery.Proofs.Range.Finite
import OccurrenceQuery.Proofs.Range.Form
import OccurrenceQuery.Proofs.Range.Inclusion
import OccurrenceQuery.Proofs.Range.Integers
import OccurrenceQuery.Proofs.Range.Operators
import OccurrenceQuery.Proofs.Range.Recognition
import OccurrenceQuery.Proofs.Range.Report
import OccurrenceQuery.Proofs.Rejection
import OccurrenceQuery.Proofs.Temporal.Dates
import OccurrenceQuery.Proofs.Temporal.Distance
import OccurrenceQuery.Proofs.Temporal.Grammar
import OccurrenceQuery.Proofs.Temporal.History
import OccurrenceQuery.Proofs.Temporal.LeapSecond
import OccurrenceQuery.Proofs.Temporal.Stripping
import OccurrenceQuery.Proofs.Text
import OccurrenceQuery.Proofs.UpperCase
import OccurrenceQuery.Proofs.Validation
import OccurrenceQuery.Proofs.Vocabulary.Builtin
import OccurrenceQuery.Proofs.Vocabulary.CodeTable
import OccurrenceQuery.Proofs.Vocabulary.Name
import OccurrenceQuery.Range.Operators
