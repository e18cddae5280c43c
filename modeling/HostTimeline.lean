import HostTimeline.Binary64
import HostTimeline.Calendar.Clock
import HostTimeline.Calendar.Date
import HostTimeline.Calendar.Reading
import HostTimeline.Chart
import HostTimeline.Command.Arguments
import HostTimeline.Command.Program
import HostTimeline.Command.Request
import HostTimeline.Condense
import HostTimeline.Decimal.Basic
import HostTimeline.Decimal.Fixed
import HostTimeline.Decimal.Reading
import HostTimeline.Decimal.Shortest
import HostTimeline.Document.Basic
import HostTimeline.Document.Decoding
import HostTimeline.Entries
import HostTimeline.Fences
import HostTimeline.HostMap
import HostTimeline.Json.Numeral
import HostTimeline.Json.Printer
import HostTimeline.Json.Quoted
import HostTimeline.Json.Reader
import HostTimeline.Json.Value
import HostTimeline.Listing.Basic
import HostTimeline.Listing.Capacities
import HostTimeline.Listing.Hosts
import HostTimeline.Listing.Resources
import HostTimeline.Listing.States
import HostTimeline.Listing.Usage
import HostTimeline.Load
import HostTimeline.Main
import HostTimeline.Observation
import HostTimeline.Occupancy
import HostTimeline.PowerState
import HostTimeline.Report.Basic
import HostTimeline.Report.Wording
import HostTimeline.Scalar
import HostTimeline.StableSort
import HostTimeline.StepFunction
import HostTimeline.Table.Awk
import HostTimeline.Table.Basic
import HostTimeline.Table.Csv
import HostTimeline.Table.Fixed
import HostTimeline.Table.Objects
import HostTimeline.Table.Selection
import HostTimeline.Text.Blank
import HostTimeline.Text.Integer
import HostTimeline.Text.Split
import HostTimeline.TimeArgument
import HostTimeline.TimeGrid
import HostTimeline.Timeline
import HostTimeline.Track
import HostTimeline.Window
import HostTimeline.Proofs.Number.Order
import HostTimeline.Proofs.Number.Binary64
import HostTimeline.Proofs.Number.Distinct
import HostTimeline.Proofs.TimeGrid
import HostTimeline.Proofs.StepFunction
import HostTimeline.Proofs.Track
import HostTimeline.Proofs.Number.Rounding
import HostTimeline.Proofs.Milliseconds
import HostTimeline.Proofs.Chart
import HostTimeline.Proofs.Number.Finite
import HostTimeline.Proofs.Condense
import HostTimeline.Proofs.Document
import HostTimeline.Proofs.Timeline
import HostTimeline.Proofs.Listing
import HostTimeline.Proofs.Number.SignedZero
import HostTimeline.Proofs.Retained
import HostTimeline.Proofs.ClippedSteps
import HostTimeline.Proofs.Occupancy
import HostTimeline.Proofs.Runs
import HostTimeline.Proofs.Load
import HostTimeline.Proofs.Capacity
import HostTimeline.Proofs.Refill
import HostTimeline.Proofs.Clipping
import HostTimeline.Proofs.Integral
import HostTimeline.Proofs.Area
import HostTimeline.Proofs.Durations
import HostTimeline.Proofs.Figures
import HostTimeline.Proofs.Statistics
import HostTimeline.Proofs.Coverage
import HostTimeline.Proofs.ChartArea
import HostTimeline.Proofs.Refilled
import HostTimeline.Proofs.Number.WholeNumber
import HostTimeline.Proofs.Lossless
import HostTimeline.Proofs.Spanning
import HostTimeline.Proofs.Extent
import HostTimeline.Proofs.Renormalized
import HostTimeline.Proofs.Reordering
import HostTimeline.Proofs.Number.Greatest
import HostTimeline.Proofs.Number.Addition
import HostTimeline.Proofs.StateCounts
import HostTimeline.Proofs.Outliers
import HostTimeline.Proofs.Overload
import HostTimeline.Proofs.ChartBounds
import HostTimeline.Proofs.Alignment
import HostTimeline.Proofs.IntegerText
import HostTimeline.Proofs.Number.IntegerValue
import HostTimeline.Proofs.Decoding
import HostTimeline.Proofs.DocumentFormat
import HostTimeline.Proofs.Records
import HostTimeline.Proofs.JsonText
import HostTimeline.Proofs.TableText
import HostTimeline.Proofs.HostCells
import HostTimeline.Proofs.Recondensed
import HostTimeline.Proofs.Stays
import HostTimeline.Proofs.Printed
import HostTimeline.Proofs.Dates
import HostTimeline.Proofs.Number.Floor
import HostTimeline.Proofs.DateText
import HostTimeline.Proofs.Moments
import HostTimeline.Proofs.Fences
import HostTimeline.Proofs.Resolution
import HostTimeline.Proofs.Thinning
import HostTimeline.Proofs.SlotCounts
import HostTimeline.Proofs.FixedColumns
import HostTimeline.Proofs.Refusals
import HostTimeline.Proofs.Reached
import HostTimeline.Proofs.AmountText
