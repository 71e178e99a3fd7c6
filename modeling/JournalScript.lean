import JournalScript.CommandLine.Run
import JournalScript.Document.Edit
import JournalScript.Main
import JournalScript.Request
import JournalScript.Server
import JournalScript.Proofs.Line.SpaceLoss
import JournalScript.Proofs.Line.Survival
import JournalScript.Proofs.Storage
import JournalScript.Proofs.Text.Separator
import JournalScript.Proofs.Layout
import JournalScript.Proofs.Document.Reload
import JournalScript.Proofs.Document.RoundTrip
import JournalScript.Proofs.Tree.Confine
import JournalScript.Proofs.Service.Rewrite
import JournalScript.Proofs.Line.Payload
import JournalScript.Proofs.Document.Files
import JournalScript.Proofs.Service.Structured
import JournalScript.Proofs.Tree.Straight
import JournalScript.Proofs.CommandLine.Run
import JournalScript.Proofs.Document.FailedSave
import JournalScript.Proofs.Document.History
import JournalScript.Proofs.Line.Strings
import JournalScript.Proofs.Line.Passes
import JournalScript.Proofs.Document.FailedRead
import JournalScript.Proofs.Service.Window
import JournalScript.Proofs.Service.Narrowing
import JournalScript.Proofs.Tally
import JournalScript.Proofs.Summary
import JournalScript.Proofs.Service.Census
import JournalScript.Proofs.CommandLine.Listing
import JournalScript.Proofs.Document.Agreement
import JournalScript.Proofs.Resource
import JournalScript.Proofs.Layout.Effective
import JournalScript.Proofs.CommandLine.Options
