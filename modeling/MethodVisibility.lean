import MethodVisibility.Context
import MethodVisibility.Directive
import MethodVisibility.Disk
import MethodVisibility.Event
import MethodVisibility.Feed
import MethodVisibility.FileSystem
import MethodVisibility.FileText
import MethodVisibility.Frame
import MethodVisibility.Level
import MethodVisibility.Note
import MethodVisibility.Path
import MethodVisibility.Proofs.Comments
import MethodVisibility.Proofs.Constructors
import MethodVisibility.Proofs.Coverage
import MethodVisibility.Proofs.DirectiveEvents
import MethodVisibility.Proofs.DirectiveGrammar
import MethodVisibility.Proofs.Files
import MethodVisibility.Proofs.FirstFault
import MethodVisibility.Proofs.ForwardNames
import MethodVisibility.Proofs.Hidden
import MethodVisibility.Proofs.Histories
import MethodVisibility.Proofs.InStep
import MethodVisibility.Proofs.LexicalScope
import MethodVisibility.Proofs.LineEnds
import MethodVisibility.Proofs.Lockstep
import MethodVisibility.Proofs.MethodBodies
import MethodVisibility.Proofs.Nesting
import MethodVisibility.Proofs.NodeText
import MethodVisibility.Proofs.NormalSettings
import MethodVisibility.Proofs.Octets
import MethodVisibility.Proofs.Owners
import MethodVisibility.Proofs.PlacedWalk
import MethodVisibility.Proofs.Places
import MethodVisibility.Proofs.Reading
import MethodVisibility.Proofs.Recital
import MethodVisibility.Proofs.Rejections
import MethodVisibility.Proofs.Segments
import MethodVisibility.Proofs.Standing
import MethodVisibility.Proofs.StoppedWalk
import MethodVisibility.Proofs.StrictDecoding
import MethodVisibility.Proofs.Tables
import MethodVisibility.Proofs.UnwrappedTrees
import MethodVisibility.Proofs.Wrappers
import MethodVisibility.Record
import MethodVisibility.Resolve
import MethodVisibility.Resolver
import MethodVisibility.Scope
import MethodVisibility.Settings
import MethodVisibility.Site
import MethodVisibility.Source
import MethodVisibility.Stack
import MethodVisibility.Stored
import MethodVisibility.Table
import MethodVisibility.Text.Blank
import MethodVisibility.Text.Encoding
import MethodVisibility.Text.Letters
import MethodVisibility.Text.LineEnds
import MethodVisibility.Text.Lowercase
import MethodVisibility.Text.Numeral
import MethodVisibility.Text.Printable
import MethodVisibility.Text.Quoted
import MethodVisibility.Text.Utf8
import MethodVisibility.Tree.Node
import MethodVisibility.Validation
import MethodVisibility.Value
import MethodVisibility.Walk
