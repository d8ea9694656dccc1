import RenderMaterials.Pipeline.Descriptor
import RenderMaterials.Error

/-!
# Backends

A backend makes layouts and pipelines.  It may keep a state of its own, which every call takes and
gives back.
-/

namespace RenderMaterials

/-- Something that makes layouts and pipelines. -/
structure Backend (σ : Type) where
  name           : String
  createLayout   : NativeLayout → σ → Except MaterialError GpuLayout × σ
  createPipeline : Descriptor → σ → Except MaterialError GpuPipeline × σ

/-- How many stand-ins were given out. -/
structure Counts where
  layouts   : Nat := 0
  pipelines : Nat := 0
  deriving DecidableEq, Repr

namespace Counts

/-- The number of the next stand-in. -/
def nextId (c : Counts) : Nat := c.layouts + c.pipelines + 1

end Counts

/-- A backend without a graphics interface: it gives out numbered stand-ins and never fails. -/
def Backend.simulated : Backend Counts where
  name := "Dummy Backend"
  createLayout l c := (.ok (.simulated c.nextId l.words), { c with layouts := c.layouts + 1 })
  createPipeline d c :=
    (.ok (.simulated c.nextId d.label d.isCompute), { c with pipelines := c.pipelines + 1 })

end RenderMaterials
