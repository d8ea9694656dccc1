import RenderMaterials.Main
import RenderMaterials.Pipeline.Describe
import RenderMaterials.Source.Memory
import RenderMaterials.System.Instance
import RenderMaterials.Proofs.Reflection.Sharing
import RenderMaterials.Proofs.Source.Canonical
import RenderMaterials.Proofs.Document.IncludeGraph
import RenderMaterials.Proofs.Document.Loading
import RenderMaterials.Proofs.System.Catalog
import RenderMaterials.Proofs.Reflection.Faithful
import RenderMaterials.Proofs.Pipeline.Building
import RenderMaterials.Proofs.System.Serving
import RenderMaterials.Proofs.Material.WellFormed
import RenderMaterials.Proofs.Shader.Footprint
import RenderMaterials.Proofs.System.HotReload
import RenderMaterials.Proofs.Acyclic
import RenderMaterials.Proofs.State.Inheritance
import RenderMaterials.Proofs.Layout.Merging
import RenderMaterials.Proofs.Material.Passes
import RenderMaterials.Proofs.Pipeline.Faults
import RenderMaterials.Proofs.System.References
import RenderMaterials.Proofs.System.Declarations
import RenderMaterials.Proofs.Layout.Caching
import RenderMaterials.Proofs.Pipeline.Caching
import RenderMaterials.Proofs.System.Invalidation
import RenderMaterials.Proofs.System.Memoized
import RenderMaterials.Proofs.Json.Objects
import RenderMaterials.Proofs.Document.Cycles
import RenderMaterials.Proofs.Document.Merging
import RenderMaterials.Proofs.Shader.SinglePass
import RenderMaterials.Proofs.Shader.HiddenIncludes
import RenderMaterials.Proofs.Material.Parameters
import RenderMaterials.Proofs.Document.Listed
import RenderMaterials.Proofs.System.Distinct
import RenderMaterials.Proofs.System.Skipping
import RenderMaterials.Proofs.Material.Defaults
import RenderMaterials.Proofs.Shader.Conditions
import RenderMaterials.Proofs.Pipeline.Descriptors
import RenderMaterials.Proofs.Pipeline.Lockstep
import RenderMaterials.Proofs.System.Reloading
import RenderMaterials.Proofs.Source.Surviving
import RenderMaterials.Proofs.Material.OnePass
import RenderMaterials.Proofs.Material.Spellings
import RenderMaterials.Proofs.Material.Precedence
import RenderMaterials.Proofs.Source.Directories
import RenderMaterials.Proofs.Source.Slashes
import RenderMaterials.Proofs.Shader.IncludeOrder
import RenderMaterials.Proofs.Shader.Expansion
import RenderMaterials.Proofs.Shader.RootSpelling
import RenderMaterials.Proofs.State.Fields
import RenderMaterials.Proofs.State.Overlay
import RenderMaterials.Proofs.State.Packing
import RenderMaterials.Proofs.State.Strides
import RenderMaterials.Proofs.Layout.Slots
import RenderMaterials.Proofs.Layout.Parameters
import RenderMaterials.Proofs.Hash.Order
import RenderMaterials.Proofs.Document.Repeats
import RenderMaterials.Proofs.Material.Identity
import RenderMaterials.Proofs.Material.DefineSets
import RenderMaterials.Proofs.Source.History
import RenderMaterials.Proofs.Source.Containment
import RenderMaterials.Proofs.System.Handles
import RenderMaterials.Proofs.System.Completeness
import RenderMaterials.Proofs.Reflection.Usage
import RenderMaterials.Proofs.System.Places
import RenderMaterials.Proofs.Shader.Profiles
