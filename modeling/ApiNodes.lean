import ApiNodes.Text.Quoted
import ApiNodes.Text.Casing
import ApiNodes.Text.Blank
import ApiNodes.Text.Pieces
import ApiNodes.Number.Shortest
import ApiNodes.Document.Value
import ApiNodes.Document.Json.Writer
import ApiNodes.Document.Json.Reader
import ApiNodes.Name.Operation
import ApiNodes.Api.OperationKey
import ApiNodes.Document.Fields
import ApiNodes.Api.Resource
import ApiNodes.Api.Config
import ApiNodes.Api.Extract
import ApiNodes.Api.Event
import ApiNodes.Typescript.Locals
import ApiNodes.Typescript.Review
import ApiNodes.Document.Yaml.Scalar
import ApiNodes.Document.Yaml.Graph
import ApiNodes.Document.Yaml.Reader
import ApiNodes.Document.File
import ApiNodes.Text.LabelOrder
import ApiNodes.Template.Basic
import ApiNodes.Template.Catalog
import ApiNodes.Artifact.Handler
import ApiNodes.Artifact.Properties
import ApiNodes.Artifact.Registry
import ApiNodes.Artifact.Webhooks
import ApiNodes.Document.Sorted
import ApiNodes.Api.Record
import ApiNodes.Files.Tree
import ApiNodes.Run.Generated
import ApiNodes.Run.Webhooks
import ApiNodes.Command.Inputs
import ApiNodes.Main
import ApiNodes.Proofs.Extraction.Partition
import ApiNodes.Proofs.Artifact.Agreement
import ApiNodes.Proofs.Run.Overwriting
import ApiNodes.Proofs.Run.Confinement
import ApiNodes.Proofs.Run.Provenance
import ApiNodes.Proofs.Run.Leftovers
import ApiNodes.Proofs.Run.Validation
import ApiNodes.Proofs.Artifact.AdditionalFields
import ApiNodes.Proofs.Extraction.Tolerance
import ApiNodes.Proofs.Name.Identifier
import ApiNodes.Proofs.Extraction.Identifiers
import ApiNodes.Proofs.Run.Recording
import ApiNodes.Proofs.Typescript.Nesting
import ApiNodes.Proofs.Extraction.Filters
import ApiNodes.Proofs.Artifact.Rewording
import ApiNodes.Proofs.Run.Scratch
import ApiNodes.Proofs.Extraction.Naming
import ApiNodes.Proofs.Extraction.Appending
import ApiNodes.Proofs.Extraction.Deletion
import ApiNodes.Proofs.Typescript.RequestPath
import ApiNodes.Proofs.Typescript.LocalNames
import ApiNodes.Proofs.Artifact.Members
import ApiNodes.Proofs.Artifact.FormFields
import ApiNodes.Proofs.Artifact.PathLocals
import ApiNodes.Proofs.Typescript.Faults
import ApiNodes.Proofs.Typescript.Description
import ApiNodes.Proofs.Artifact.WebhookAgreement
import ApiNodes.Proofs.Artifact.FieldOrder
import ApiNodes.Proofs.Extraction.Schemas
import ApiNodes.Proofs.Run.ExactCleaning
import ApiNodes.Proofs.Extraction.ReducedKeys
import ApiNodes.Proofs.Typescript.Listings
import ApiNodes.Proofs.Artifact.RegistryNames
import ApiNodes.Proofs.Run.Loading
