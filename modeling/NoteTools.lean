import NoteTools.CommandLine.Style
import NoteTools.LogFilter
import NoteTools.Main
import NoteTools.Proofs.NormalForm
import NoteTools.Proofs.QueryReading
import NoteTools.Proofs.UpdateScript
import NoteTools.Tool.Call
import NoteTools.Proofs.FormQuery
import NoteTools.Proofs.RequestLine
import NoteTools.Proofs.Routes
import NoteTools.Proofs.Runs
import NoteTools.Proofs.RoutedRuns
import NoteTools.Proofs.SearchRun
import NoteTools.Proofs.Admission
import NoteTools.Proofs.RecordDecoding
import NoteTools.Proofs.SchemaMeaning
import NoteTools.Proofs.ValueDecoding
import NoteTools.Proofs.ToolArguments
import NoteTools.Proofs.RequestRoundTrip
import NoteTools.Proofs.ToolRuns
import NoteTools.Proofs.CriteriaAccount
import NoteTools.Proofs.SecretToken
import NoteTools.Proofs.ConfiguredKeys
import NoteTools.Proofs.ContentRoundTrip
import NoteTools.Proofs.Reloading
import NoteTools.Proofs.FirstInvalidDate
import NoteTools.Proofs.WrittenDates
import NoteTools.Proofs.Numerals
import NoteTools.Proofs.ConsistentNotes
import NoteTools.Proofs.AttributeNames
import NoteTools.Proofs.SearchFlags
import NoteTools.Proofs.GetRun
import NoteTools.Proofs.Refusals
import NoteTools.Proofs.ReplyClasses
import NoteTools.Proofs.IgnoredCriteria
import NoteTools.Proofs.AliasSpellings
import NoteTools.Proofs.BearerCheck
import NoteTools.Proofs.AcceptedSettings
import NoteTools.Proofs.TracedRuns
import NoteTools.Proofs.LoopbackBind
import NoteTools.Proofs.QuotedLiterals
