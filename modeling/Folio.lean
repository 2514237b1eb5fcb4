import Folio.Main
import Folio.Proofs.Book.Fragments
import Folio.Proofs.Book.InPlace
import Folio.Proofs.Book.Links
import Folio.Proofs.Book.Missing
import Folio.Proofs.Build.Pages
import Folio.Proofs.Directive.Expand
import Folio.Proofs.Listing.Places
import Folio.Proofs.Markdown.Footnotes
import Folio.Proofs.Render.Brackets
import Folio.Proofs.Render.InPlace
import Folio.Proofs.Book.Compare
import Folio.Proofs.Book.Strict
import Folio.Directive.InPlace
import Folio.Proofs.Directive.InPlace
import Folio.Proofs.Disk.Files
import Folio.Proofs.Build.Effects
import Folio.Proofs.Build.Sources
import Folio.Proofs.Disk.Copy
import Folio.Proofs.Build.WorkingCopy
import Folio.Proofs.Label.Order
import Folio.Proofs.Directive.References
import Folio.Proofs.Book.Circles
import Folio.Proofs.Render.Prose
import Folio.Proofs.Draft.InOrder
import Folio.Proofs.Markup.Strings
import Folio.Proofs.Render.Arguments
import Folio.Proofs.Listing.Contents
import Folio.Proofs.Listing.Bindings
import Folio.Proofs.Markdown.Fresh
import Folio.Proofs.Text.Percent
import Folio.Proofs.Path.Relative
import Folio.Proofs.Markdown.Links
import Folio.Proofs.Render.Markers
import Folio.Proofs.Render.Hanging
import Folio.Proofs.Directive.Samples
import Folio.Proofs.Node.Stack
import Folio.Proofs.Compile.Outcomes
import Folio.Proofs.Config.Pages
import Folio.Proofs.Config.Options
import Folio.Proofs.Markdown.Addresses
import Folio.Proofs.Render.Headings
import Folio.Proofs.Markup.Escape
import Folio.Proofs.Label.Slug
import Folio.Proofs.Listing.Options
