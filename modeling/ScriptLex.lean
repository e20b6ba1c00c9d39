import ScriptLex.Main
import ScriptLex.Workspace
import ScriptLex.Proofs.Grammar
import ScriptLex.Proofs.LineJoin
import ScriptLex.Proofs.Boundary
import ScriptLex.Proofs.Lenient
import ScriptLex.Proofs.Trivia
import ScriptLex.Proofs.Progress
import ScriptLex.Proofs.Location
import ScriptLex.Proofs.Diagnostics
import ScriptLex.Proofs.Command
import ScriptLex.Proofs.Agreement
import ScriptLex.Proofs.Denotation
import ScriptLex.Proofs.ElseIf
import ScriptLex.Proofs.Shadow
import ScriptLex.Proofs.Listing
import ScriptLex.Proofs.Snippet
import ScriptLex.Proofs.JsonListing
import ScriptLex.Proofs.Configuration
import ScriptLex.Proofs.Scanner
