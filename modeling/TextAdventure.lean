import TextAdventure.Main
import TextAdventure.Object.Edit
import TextAdventure.Object.Reader
import TextAdventure.Proofs.Compiler.ReadBack
import TextAdventure.Proofs.Script.Passage
import TextAdventure.Proofs.Script.Forest
import TextAdventure.Proofs.Script.Preorder
import TextAdventure.Proofs.Compiler.SharedSupply
import TextAdventure.Proofs.Script.Canonical
import TextAdventure.Proofs.Script.Ink
import TextAdventure.Proofs.Adventure.Supply
import TextAdventure.Proofs.Compiler.Indexes
import TextAdventure.Proofs.Artifact.Layout
import TextAdventure.Proofs.Artifact.PrefixFree
import TextAdventure.Proofs.Script.Place
import TextAdventure.Proofs.Script.Sentence
import TextAdventure.Proofs.Script.Expansion
import TextAdventure.Proofs.Script.Spans
import TextAdventure.Proofs.Script.Seam
import TextAdventure.Proofs.Script.WholeStatements
import TextAdventure.Proofs.Script.Reexpansion
import TextAdventure.Proofs.Json.RoundTrip
import TextAdventure.Proofs.Object.Content
import TextAdventure.Proofs.Object.RoundTrip
import TextAdventure.Proofs.Compiler.Access
import TextAdventure.Proofs.Adventure.WellFormed
import TextAdventure.Proofs.Compiler.Gaps
import TextAdventure.Proofs.Compiler.Recompile
import TextAdventure.Proofs.Compiler.Encoding
import TextAdventure.Proofs.Script.Layout
import TextAdventure.Proofs.Script.Braces
import TextAdventure.Proofs.Script.Joining
import TextAdventure.Proofs.Script.Nesting
import TextAdventure.Proofs.Script.Tiling
import TextAdventure.Proofs.Script.Turns
import TextAdventure.Proofs.VersionGrammar
import TextAdventure.Proofs.Script.Links
import TextAdventure.Proofs.Script.Rendering
