import ApiOutline.DocNode
import ApiOutline.FileTree.Generated
import ApiOutline.Model.Json
import ApiOutline.Options.Yaml
import ApiOutline.Outline.Compile
import ApiOutline.Outline.Printer
import ApiOutline.Route
import ApiOutline.Swagger.Kits
import ApiOutline.Swagger.Printer
import ApiOutline.Proofs.OpenFields
import ApiOutline.Proofs.Placements
import ApiOutline.Proofs.Reading
import ApiOutline.Proofs.Blame
import ApiOutline.Proofs.Grammar
import ApiOutline.Proofs.Structure
import ApiOutline.Proofs.Text
import ApiOutline.Proofs.Written
import ApiOutline.Proofs.Rendering
import ApiOutline.Proofs.Provenance
import ApiOutline.Proofs.Relabel
import ApiOutline.Proofs.RoundTrip
import ApiOutline.Proofs.TypeToken
import ApiOutline.Proofs.WellFormed
import ApiOutline.Proofs.Build
import ApiOutline.Proofs.Conflicts
import ApiOutline.Proofs.OperationIds
import ApiOutline.Proofs.References
import ApiOutline.Proofs.Dialects
import ApiOutline.Proofs.Routes
import ApiOutline.Proofs.Settings
import ApiOutline.Proofs.Blanks
import ApiOutline.Proofs.Directives
import ApiOutline.Proofs.Spacing
import ApiOutline.Proofs.Indentation
import ApiOutline.Proofs.Visits
import ApiOutline.Proofs.Properties
import ApiOutline.Proofs.KitResponses
import ApiOutline.Proofs.KitPaths
import ApiOutline.Proofs.Stubs
import ApiOutline.Proofs.RouteTable
import ApiOutline.Proofs.Lookup
import ApiOutline.Proofs.ModelValues
import ApiOutline.Proofs.SameShape
import ApiOutline.Proofs.ElementTypes
import ApiOutline.Proofs.QueryParameters
import ApiOutline.Proofs.HandlerSpans
import ApiOutline.Proofs.ResponseComments
import ApiOutline.Proofs.FieldLines
import ApiOutline.Proofs.LineKinds
import ApiOutline.Proofs.CommentEscapes
import ApiOutline.Proofs.Markers
import ApiOutline.Proofs.Envelopes
import ApiOutline.Proofs.Guards
import ApiOutline.Proofs.FileTree
import ApiOutline.Proofs.GeneratedFiles
