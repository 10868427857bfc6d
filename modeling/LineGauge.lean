import LineGauge.Main
import LineGauge.Proofs.Scan
import LineGauge.Proofs.Exclusion
import LineGauge.Proofs.Collect
import LineGauge.Proofs.Excluding
import LineGauge.Proofs.Roots
import LineGauge.Proofs.Directory
import LineGauge.Proofs.Order
import LineGauge.Proofs.Strict
import LineGauge.Proofs.Limits
import LineGauge.Proofs.Grouping
import LineGauge.Proofs.Output
import LineGauge.Proofs.Run
import LineGauge.Proofs.Contents
import LineGauge.Proofs.Options
import LineGauge.Proofs.Project
import LineGauge.Proofs.Relocation
import LineGauge.Proofs.Json
import LineGauge.Proofs.Utf8
import LineGauge.Proofs.Document
import LineGauge.Proofs.Folded
import LineGauge.Proofs.Listing
import LineGauge.Proofs.Rebase
import LineGauge.Proofs.Merging
import LineGauge.Proofs.Loading
import LineGauge.Proofs.Endings
import LineGauge.Proofs.Spelling
import LineGauge.Proofs.Ancestors
import LineGauge.Proofs.Concatenation
import LineGauge.Proofs.Blanks
import LineGauge.Proofs.Margins
import LineGauge.Proofs.Leaders
import LineGauge.Proofs.Receiver
import LineGauge.Proofs.Colour
import LineGauge.Proofs.Switches
import LineGauge.Proofs.Numeral
import LineGauge.Proofs.CommandLine
import LineGauge.Proofs.Keys
import LineGauge.Proofs.Continuation
import LineGauge.Proofs.Literals
import LineGauge.Proofs.Written
import LineGauge.Proofs.Extensions
