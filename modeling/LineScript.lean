import LineScript.Main
import LineScript.Proofs.Text.Characters
import LineScript.Proofs.Text.Lines
import LineScript.Proofs.Token.Scanning
import LineScript.Proofs.Token.LineByLine
import LineScript.Proofs.Tree.Parsing
import LineScript.Proofs.Tree.Program
import LineScript.Proofs.Grammar
import LineScript.Proofs.Session.TextJoin
import LineScript.Proofs.Session.Accumulator
import LineScript.Proofs.Session.Blame
import LineScript.Proofs.Location
import LineScript.Proofs.Tree.Shift
import LineScript.Proofs.Concatenation
import LineScript.Proofs.Integer
import LineScript.Proofs.Tree.Shape
import LineScript.Proofs.Session.Written
import LineScript.Proofs.Session.Outcome
import LineScript.Proofs.Session.Moved
import LineScript.Proofs.Shell.Feed
import LineScript.Proofs.Session.Agreement
import LineScript.Proofs.Session.Replay
import LineScript.Proofs.Tree.Acceptance
import LineScript.Proofs.Cover
import LineScript.Proofs.Readout
import LineScript.Proofs.Session.Aborted
import LineScript.Proofs.Session.Reachable
import LineScript.Proofs.Escaping
import LineScript.Proofs.CommandLine.Script
import LineScript.Proofs.Session.Bindings
import LineScript.Proofs.Shell.Dialogue
import LineScript.Proofs.Token.Squeezing
import LineScript.Proofs.Tree.Rejected
import LineScript.Proofs.Arithmetic
import LineScript.Proofs.Session.Received
import LineScript.Proofs.Report.Underline
import LineScript.Proofs.Report.Sources
import LineScript.Proofs.Shell.Settled
