import RenderMaterials.Pipeline.Descriptor
import RenderMaterials.Text.Quoted

/-!
# Descriptions of backend objects

How layouts and pipelines of backends show in diagnostics.  Objects of a graphics interface show
nothing but that they are some.
-/

namespace RenderMaterials

/-- A layout as diagnostics show it. -/
def GpuLayout.describe : GpuLayout → String
  | simulated id words =>
    "GpuBindingLayout::Dummy \x7b id: " ++ toString id ++ ", size_in_words: " ++ toString words
      ++ " \x7d"
  | native _           => "GpuBindingLayout::Native(..)"

/-- A pipeline as diagnostics show it. -/
def GpuPipeline.describe : GpuPipeline → String
  | simulated id label compute =>
    "GpuPipeline::Dummy \x7b id: " ++ toString id ++ ", label: " ++ Text.quoted label
      ++ ", compute: " ++ toString compute ++ " \x7d"
  | native _                   => "GpuPipeline::Native(..)"

end RenderMaterials
