import Formwork.Cache.Basic
import Formwork.Cache.Compile
import Formwork.Cache.Hash
import Formwork.Command.Arguments
import Formwork.Command.Report
import Formwork.Command.Run
import Formwork.Command.Settings
import Formwork.Field.Attributes
import Formwork.Field.Basic
import Formwork.Field.Counters
import Formwork.Field.Error
import Formwork.Field.Kind
import Formwork.Field.Messages
import Formwork.Field.Registry
import Formwork.Field.Table
import Formwork.Field.Vocabulary
import Formwork.Field.Widget
import Formwork.Json.Basic
import Formwork.Json.Parse
import Formwork.Main
import Formwork.Markup.Character
import Formwork.Markup.Error
import Formwork.Markup.Escape
import Formwork.Markup.Fault
import Formwork.Markup.Lexer
import Formwork.Markup.Name
import Formwork.Markup.Parse
import Formwork.Markup.Reference
import Formwork.Markup.Scan
import Formwork.Markup.Token
import Formwork.Markup.Tree
import Formwork.OrderedMap
import Formwork.Page.Basic
import Formwork.Page.Build
import Formwork.Page.Edit
import Formwork.Page.Error
import Formwork.Page.Markup
import Formwork.Panel.Basic
import Formwork.Panel.Hierarchy
import Formwork.Panel.State
import Formwork.Panel.Values
import Formwork.Resource.Barrier
import Formwork.Resource.Bootstrap
import Formwork.Resource.Folder
import Formwork.Resource.Loader
import Formwork.Resource.Response
import Formwork.Template.Assembly
import Formwork.Template.Blueprint
import Formwork.Template.Builder
import Formwork.Template.Error
import Formwork.Template.Splice
import Formwork.Text.Blank
import Formwork.Text.Position
import Formwork.Proofs.OrderedMap
import Formwork.Proofs.Page.Dom
import Formwork.Proofs.Page.Layout
import Formwork.Proofs.Step
import Formwork.Proofs.Page.Change
import Formwork.Proofs.Page.Import
import Formwork.Proofs.Widget.Look
import Formwork.Proofs.Widget.Build
import Formwork.Proofs.Page.Order
import Formwork.Proofs.Page.Steps
import Formwork.Proofs.Panel.Draft
import Formwork.Proofs.Panel.Overlooked
import Formwork.Proofs.Panel.Realize
import Formwork.Proofs.Panel.Link
import Formwork.Proofs.Panel.Pages
import Formwork.Proofs.Panel.TakePage
import Formwork.Proofs.Panel.AddChild
import Formwork.Proofs.Page.Swap
import Formwork.Proofs.Page.Forest
import Formwork.Proofs.Page.Walks
import Formwork.Proofs.Page.Operations
import Formwork.Proofs.Panel.Create
import Formwork.Proofs.Template.Settle
import Formwork.Proofs.Template.Walk
import Formwork.Proofs.Template.Splice
import Formwork.Proofs.Template.Play
import Formwork.Proofs.Template.Replay
import Formwork.Proofs.Template.Assemble
import Formwork.Proofs.Template.Outline
import Formwork.Proofs.Template.Mirror
import Formwork.Proofs.Template.Sketch
import Formwork.Proofs.Template.Collect
import Formwork.Proofs.Template.Nested
import Formwork.Proofs.Template.Recursion
import Formwork.Proofs.Page.Read
import Formwork.Proofs.Panel.Resolve
import Formwork.Proofs.Panel.ShowView
import Formwork.Proofs.Cache.Canonical
import Formwork.Proofs.Cache.Denotation
import Formwork.Proofs.Markup.Steps
import Formwork.Proofs.Markup.Nesting
import Formwork.Proofs.Markup.Writing
import Formwork.Proofs.Markup.Roundtrip
import Formwork.Proofs.Markup.Document
import Formwork.Proofs.Markup.Arrangement
import Formwork.Proofs.Markup.Standing
import Formwork.Proofs.Markup.Traversal
import Formwork.Proofs.Markup.Scoping
import Formwork.Proofs.Markup.Joined
import Formwork.Proofs.Markup.Naming
import Formwork.Proofs.Template.Loading
import Formwork.Proofs.Template.Lookups
import Formwork.Proofs.Template.Capture
import Formwork.Proofs.Template.Kept
import Formwork.Proofs.Template.Rendering
import Formwork.Proofs.Template.Identifiers
import Formwork.Proofs.Template.Events
import Formwork.Proofs.Template.Workshop
import Formwork.Proofs.Template.Inlay
import Formwork.Proofs.Template.Dissolved
import Formwork.Proofs.Template.Following
import Formwork.Proofs.Template.Fidelity
import Formwork.Proofs.Panel.Booking
import Formwork.Proofs.Panel.Removal
import Formwork.Proofs.Panel.Books
import Formwork.Proofs.Panel.Ancestry
import Formwork.Proofs.Page.Effects
import Formwork.Proofs.Widget.Forest
import Formwork.Proofs.Panel.Grounds
import Formwork.Proofs.Page.Tabs
import Formwork.Proofs.Panel.Parts
import Formwork.Proofs.Panel.Arranging
import Formwork.Proofs.Panel.Tabs
import Formwork.Proofs.Panel.Headers
import Formwork.Proofs.Cache.Hashing
import Formwork.Proofs.Page.Subtrees
import Formwork.Proofs.Page.Confined
import Formwork.Proofs.Widget.Cells
import Formwork.Proofs.Widget.Writing
import Formwork.Proofs.Panel.Custody
import Formwork.Proofs.Panel.Storing
import Formwork.Proofs.Template.Frame
import Formwork.Proofs.Panel.Reached
import Formwork.Proofs.Panel.Refusal
import Formwork.Proofs.Panel.Values
import Formwork.Proofs.Template.Values
import Formwork.Proofs.Resource.Barrier
import Formwork.Proofs.Resource.Bootstrap
import Formwork.Proofs.Widget.Storing
import Formwork.Proofs.Panel.Told
import Formwork.Proofs.Panel.Pictured
import Formwork.Proofs.Panel.Naming
import Formwork.Proofs.Command.Override
import Formwork.Proofs.Panel.Outlasting
import Formwork.Proofs.Panel.Configured
import Formwork.Proofs.Panel.Resetting
import Formwork.Proofs.Markup.Decoding
import Formwork.Proofs.Field.Messages
import Formwork.Proofs.Markup.Passing
import Formwork.Proofs.Page.Settled
import Formwork.Proofs.Page.Literal
import Formwork.Proofs.Panel.Restoring
import Formwork.Proofs.Panel.Captions
import Formwork.Proofs.Panel.Visits
import Formwork.Proofs.Panel.Clearing
import Formwork.Proofs.Panel.Enabling
import Formwork.Proofs.Template.Ranked
import Formwork.Proofs.Template.Controls
import Formwork.Proofs.Panel.Uprooting
import Formwork.Proofs.Panel.Lasting
import Formwork.Proofs.Panel.Lodging
import Formwork.Proofs.Panel.Gallery
import Formwork.Proofs.Panel.Replacing
import Formwork.Proofs.Panel.Enrolling
import Formwork.Proofs.Page.DocumentOrder
import Formwork.Proofs.Page.Moves
import Formwork.Proofs.Page.Copying
import Formwork.Proofs.Cache.Confluence
import Formwork.Proofs.Field.Registry
import Formwork.Proofs.Markup.Locating
