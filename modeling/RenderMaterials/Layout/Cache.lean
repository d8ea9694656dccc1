import RenderMaterials.Pipeline.Backend
import RenderMaterials.Table

/-!
# Layout cache

Layouts that a backend has made, by the key of their specification.  A key that stands for two
specifications is an error, and never shares a layout.
-/

namespace RenderMaterials

/-- Layouts by key, each with the specification that it was made for. -/
structure LayoutCache where
  entries : Table UInt64 (LayoutSpec × GpuLayout) := []
  deriving DecidableEq, Repr

namespace LayoutCache

/-- What a cache answers: the result, and the native layout that the backend was asked for, if it
was asked. -/
structure Answer (σ : Type) where
  result : Except MaterialError GpuLayout
  asked? : Option NativeLayout
  cache  : LayoutCache
  device : σ

/-- The layout of a specification, made by the backend if there is none yet. -/
def getOrCreate {σ : Type} (c : LayoutCache) (b : Backend σ) (dev : σ) (spec : LayoutSpec) :
    Answer σ :=
  match c.entries.value? spec.hash with
  | some (known, layout) =>
    if known = spec then ⟨.ok layout, none, c, dev⟩
    else ⟨.error (.layoutCollision spec.hash), none, c, dev⟩
  | none =>
    match NativeLayout.ofSpec spec with
    | .error e   => ⟨.error e, none, c, dev⟩
    | .ok native =>
      match b.createLayout native dev with
      | (.error e, dev)   => ⟨.error e, some native, c, dev⟩
      | (.ok layout, dev) =>
        ⟨.ok layout, some native, ⟨c.entries.assign spec.hash (spec, layout)⟩, dev⟩

end LayoutCache

end RenderMaterials
