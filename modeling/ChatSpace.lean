import ChatSpace.Main
import ChatSpace.Proofs.Batch.Calls
import ChatSpace.Proofs.Batch.Grammar
import ChatSpace.Proofs.Batch.Parts
import ChatSpace.Proofs.Batch.RoundTrip
import ChatSpace.Proofs.Calendar.Days
import ChatSpace.Proofs.Calendar.Reading
import ChatSpace.Proofs.CommandLine.Exit
import ChatSpace.Proofs.CommandLine.Frame
import ChatSpace.Proofs.Commit.Grammar
import ChatSpace.Proofs.Commit.Layout
import ChatSpace.Proofs.Commit.Offset
import ChatSpace.Proofs.Commit.Signature
import ChatSpace.Proofs.Commit.Timestamp
import ChatSpace.Proofs.Commit.Tolerance
import ChatSpace.Proofs.Commit.Trees
import ChatSpace.Proofs.Files.Directories
import ChatSpace.Proofs.Files.Growth
import ChatSpace.Proofs.Files.Making
import ChatSpace.Proofs.Files.Walk
import ChatSpace.Proofs.History.Agreement
import ChatSpace.Proofs.History.Delivery
import ChatSpace.Proofs.History.Pipeline
import ChatSpace.Proofs.History.Reaping
import ChatSpace.Proofs.History.Reporting
import ChatSpace.Proofs.History.Verdict
import ChatSpace.Proofs.ObjectId.Digits
import ChatSpace.Proofs.ObjectId.Order
import ChatSpace.Proofs.Processes.Calm
import ChatSpace.Proofs.Processes.Collecting
import ChatSpace.Proofs.Processes.Environment
import ChatSpace.Proofs.Processes.Fallback
import ChatSpace.Proofs.Processes.Feeding
import ChatSpace.Proofs.Processes.Growth
import ChatSpace.Proofs.Processes.Guarding
import ChatSpace.Proofs.Processes.Lookup
import ChatSpace.Proofs.Processes.Recording
import ChatSpace.Proofs.Processes.Refusal
import ChatSpace.Proofs.Processes.Release
import ChatSpace.Proofs.Processes.Reporting
import ChatSpace.Proofs.Processes.Rest
import ChatSpace.Proofs.Processes.Starting
import ChatSpace.Proofs.Programs.Shell
import ChatSpace.Proofs.Space.Marking
import ChatSpace.Proofs.Space.Posting
import ChatSpace.Proofs.Space.Printed
import ChatSpace.Proofs.Space.Showing
import ChatSpace.Proofs.Text.Blanks
import ChatSpace.Proofs.Text.Lines
import ChatSpace.Proofs.Text.Utf8
import ChatSpace.Proofs.Writing.Feed
import ChatSpace.Proofs.Writing.Pager
import ChatSpace.Proofs.Writing.Writer
