import MetaFed.Collection.Operation
import MetaFed.Json.Reader
import MetaFed.Json.Writer
import MetaFed.Mapping.Registry
import MetaFed.Wire.Collection
import MetaFed.Wire.Instance
import MetaFed.Wire.Mapping
import MetaFed.Wire.Native
import MetaFed.Proofs.Attempt
import MetaFed.Proofs.Folding
import MetaFed.Proofs.Percent
import MetaFed.Proofs.Guid
import MetaFed.Proofs.Session
import MetaFed.Proofs.Run
import MetaFed.Proofs.Table
import MetaFed.Proofs.Plan
import MetaFed.Proofs.Catalog
import MetaFed.Proofs.Entities
import MetaFed.Proofs.Find
import MetaFed.Proofs.Paging
import MetaFed.Proofs.Lookup
import MetaFed.Proofs.QualifiedName
import MetaFed.Proofs.Shortcut
import MetaFed.Proofs.RelationshipGuid
import MetaFed.Proofs.NormalForm
import MetaFed.Proofs.Cache
import MetaFed.Proofs.Links
import MetaFed.Proofs.Listing
import MetaFed.Proofs.LinkIdentity
import MetaFed.Proofs.Consistent
import MetaFed.Proofs.Held
import MetaFed.Proofs.Resolve
import MetaFed.Proofs.Hits
import MetaFed.Proofs.Views
import MetaFed.Proofs.NameParts
import MetaFed.Proofs.ExactName
import MetaFed.Proofs.NameLookup
import MetaFed.Proofs.RoundTrip
import MetaFed.Proofs.Requested
import MetaFed.Proofs.Hierarchy
import MetaFed.Proofs.Expansion
import MetaFed.Proofs.Closed
import MetaFed.Proofs.Rederived
import MetaFed.Proofs.Found
import MetaFed.Proofs.Operation
import MetaFed.Proofs.Spelling
import MetaFed.Proofs.Agreement
import MetaFed.Proofs.Document
import MetaFed.Proofs.Neighborhood
import MetaFed.Proofs.Asked
import MetaFed.Proofs.Parallel
import MetaFed.Proofs.Tracked
import MetaFed.Proofs.Projection
import MetaFed.Proofs.Outages
import MetaFed.Proofs.Evaluation
import MetaFed.Proofs.Unmapped
import MetaFed.Proofs.Classified
import MetaFed.Proofs.Told
import MetaFed.Proofs.Refused
import MetaFed.Proofs.WellFormed
import MetaFed.Proofs.Outcomes
import MetaFed.Proofs.Answered
import MetaFed.Proofs.Slice
import MetaFed.Proofs.Reading
import MetaFed.Proofs.Conjunction
import MetaFed.Proofs.WhereClause
import MetaFed.Proofs.HitOrder
import MetaFed.Proofs.Reordered
import MetaFed.Proofs.Storage
import MetaFed.Proofs.Sequencing
import MetaFed.Proofs.Repeats
import MetaFed.Proofs.Pieces
import MetaFed.Proofs.IdentityHead
import MetaFed.Proofs.NameStarts
import MetaFed.Proofs.NameEnds
import MetaFed.Proofs.Approximation
import MetaFed.Proofs.PlainRegex
import MetaFed.Proofs.PlainPattern
import MetaFed.Proofs.PatternBody
import MetaFed.Proofs.PatternForm
import MetaFed.Proofs.NameText
import MetaFed.Proofs.Ancestry
import MetaFed.Proofs.CacheHistory
import MetaFed.Proofs.ReverseLinks
import MetaFed.Proofs.HeadOwner
import MetaFed.Proofs.Attributes
import MetaFed.Proofs.Registry
import MetaFed.Proofs.FreeText
import MetaFed.Proofs.Inspected
import MetaFed.Proofs.Unseen
