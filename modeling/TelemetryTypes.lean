import TelemetryTypes.Main
import TelemetryTypes.Proofs.Command.Generating
import TelemetryTypes.Proofs.Config.Reading
import TelemetryTypes.Proofs.Definitions.Faults
import TelemetryTypes.Proofs.Definitions.MergedDocument
import TelemetryTypes.Proofs.Resolution.History
import TelemetryTypes.Proofs.Synthesis.Bundled
import TelemetryTypes.Proofs.Synthesis.Descriptions
import TelemetryTypes.Proofs.Synthesis.Exports
import TelemetryTypes.Proofs.Synthesis.Extension
import TelemetryTypes.Proofs.Synthesis.Fields
import TelemetryTypes.Proofs.Synthesis.FirstFault
import TelemetryTypes.Proofs.Synthesis.Flattening
import TelemetryTypes.Proofs.Synthesis.Hygiene
import TelemetryTypes.Proofs.Synthesis.Layout
import TelemetryTypes.Proofs.Synthesis.Legality
import TelemetryTypes.Proofs.Synthesis.Lockstep
import TelemetryTypes.Proofs.Synthesis.Relevance
import TelemetryTypes.Proofs.Synthesis.Reordering
import TelemetryTypes.Proofs.Lexical.TextLines
import TelemetryTypes.Proofs.Synthesis.Unions
import TelemetryTypes.Proofs.Lexical.Headlines
import TelemetryTypes.Proofs.Lexical.Contents
import TelemetryTypes.Proofs.Lexical.ExportLines
import TelemetryTypes.Proofs.Lexical.Lossless
import TelemetryTypes.Proofs.Json.Printing
import TelemetryTypes.Proofs.Command.Checking
import TelemetryTypes.Proofs.Lexical.Comments
import TelemetryTypes.Proofs.Lexical.Spellings
import TelemetryTypes.Proofs.Resolution.Registering
import TelemetryTypes.Proofs.Text.PascalCase
