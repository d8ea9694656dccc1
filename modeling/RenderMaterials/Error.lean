import RenderMaterials.Text.Hex

/-!
# Errors

Every way in which loading, parsing or building can fail, each cause with its data.  The wording is
in `MaterialError.message` and nowhere else.  An error is *fatal* when it breaks a rule of the
material set itself, and *reported* when a caller may go on with fewer materials.
-/

namespace RenderMaterials

/-- How a caller has to treat an error. -/
inductive Severity where
  | fatal
  | reported
  deriving DecidableEq, Repr

/-- The causes of failure. -/
inductive MaterialError where
  | fileNotFound (path : String)
  | io (path reason : String)
  | invalidPath (path reason : String)
  | json (path reason : String)
  | invalidDocument (path reason : String)
  | includeCycle (chain : List String)
  | schema (reason : String)
  | duplicateId (id category : String)
  | missingField (context field : String)
  | invalidParameter (name reason : String)
  | unknownParameterType (name type : String)
  | unknownShaderStage (material stage : String)
  | duplicateShaderStage (material pass stage : String)
  | shaderFileNotFound (material path : String)
  | invalidProfile (material stage profile : String)
  | unknownShader (material stage id : String)
  | ambiguousPass (material reason : String)
  | unknownPass (material pass : String)
  | unknownMaterial (material : String)
  | missingStateBlock (category id referrer : String)
  | unknownRenderPass (renderPass : String)
  | invalidStateValue (category field value : String)
  | stateInheritanceCycle (category : String) (chain : List String)
  | shaderCompilation (material pass stage reason : String)
  | reflection (identity reason : String)
  | duplicateBinding (name existing incoming : String)
  | layoutTooLarge (words limit : Nat)
  | layoutCollision (hash : UInt64)
  | hashCollision (hash : UInt64) (existingMaterial existingPass material pass : String)
  | invalidPipelineHash (material pass : String)
  | missingVertexShader (material pass : String)
  | mixedComputeStages (material pass : String)
  | backend (reason : String)
  | configuration (reason : String)
  deriving DecidableEq, Repr

namespace MaterialError

/-- A chain of names as messages show it. -/
def arrows (chain : List String) : String := " -> ".intercalate chain

/-- The wording of an error. -/
def message : MaterialError → String
  | fileNotFound path => s!"file not found: {path}"
  | io path reason => s!"I/O error reading {path}: {reason}"
  | invalidPath path reason => s!"invalid path '{path}': {reason}"
  | json path reason => s!"JSON parse error in {path}: {reason}"
  | invalidDocument path reason => s!"invalid document {path}: {reason}"
  | includeCycle chain => s!"include cycle detected: {arrows chain}"
  | schema reason => s!"schema violation: {reason}"
  | duplicateId id category => s!"duplicate id '{id}' in {category}"
  | missingField context field => s!"{context}: missing required field '{field}'"
  | invalidParameter name reason => s!"invalid parameter '{name}': {reason}"
  | unknownParameterType name type => s!"unknown type '{type}' for parameter '{name}'"
  | unknownShaderStage material stage => s!"material '{material}': unknown shader stage '{stage}'"
  | duplicateShaderStage material pass stage =>
    s!"material '{material}' pass '{pass}': {stage} stage declared more than once"
  | shaderFileNotFound material path => s!"material '{material}': shader file not found: {path}"
  | invalidProfile material stage profile =>
    s!"material '{material}': profile '{profile}' is not valid for the {stage} stage"
  | unknownShader material stage id => s!"material '{material}': unknown {stage} shader id '{id}'"
  | ambiguousPass material reason => s!"material '{material}': {reason}"
  | unknownPass material pass => s!"material '{material}' has no pass named '{pass}'"
  | unknownMaterial material => s!"unknown material '{material}'"
  | missingStateBlock category id referrer =>
    s!"{category} state '{id}' referenced by {referrer} is not defined"
  | unknownRenderPass renderPass => s!"render pass '{renderPass}' is not defined"
  | invalidStateValue category field value =>
    s!"invalid value '{value}' for {category} field '{field}'"
  | stateInheritanceCycle category chain => s!"{category} inheritance cycle: {arrows chain}"
  | shaderCompilation material pass stage reason =>
    s!"material '{material}' pass '{pass}' {stage} stage failed to compile: {reason}"
  | reflection identity reason => s!"reflection failed for shader '{identity}': {reason}"
  | duplicateBinding name existing incoming =>
    s!"duplicate binding '{name}': {existing} conflicts with {incoming}"
  | layoutTooLarge words limit => s!"binding layout needs {words} words, limit is {limit}"
  | layoutCollision hash =>
    s!"binding layout hash {Text.hexWord hash} maps to two different layouts"
  | hashCollision hash existingMaterial existingPass material pass =>
    s!"pipeline hash collision {Text.hexWord hash}: cached for {existingMaterial}/{existingPass}, "
      ++ s!"stored for {material}/{pass}"
  | invalidPipelineHash material pass =>
    s!"refusing to cache material '{material}' pass '{pass}' under the invalid hash"
  | missingVertexShader material pass =>
    s!"material '{material}' pass '{pass}' has no vertex shader"
  | mixedComputeStages material pass =>
    s!"material '{material}' pass '{pass}' mixes compute and graphics stages"
  | backend reason => s!"backend error: {reason}"
  | configuration reason => s!"configuration error: {reason}"

/-- The class of an error. -/
def severity : MaterialError → Severity
  | duplicateBinding ..      => .fatal
  | hashCollision ..         => .fatal
  | layoutCollision ..       => .fatal
  | invalidPipelineHash ..   => .fatal
  | unknownShaderStage ..    => .fatal
  | duplicateShaderStage ..  => .fatal
  | invalidProfile ..        => .fatal
  | shaderFileNotFound ..    => .fatal
  | unknownParameterType ..  => .fatal
  | missingStateBlock ..     => .fatal
  | unknownRenderPass ..     => .fatal
  | missingVertexShader ..   => .fatal
  | mixedComputeStages ..    => .fatal
  | layoutTooLarge ..        => .fatal
  | stateInheritanceCycle .. => .fatal
  | invalidStateValue ..     => .fatal
  | _                        => .reported

/-- Whether an error must not be skipped. -/
def isFatal (e : MaterialError) : Bool := e.severity = .fatal

end MaterialError

/-- A load that was given up, with every error found until then. -/
structure LoadFailure where
  errors : List MaterialError
  deriving DecidableEq, Repr

namespace LoadFailure

/-- A failure with one error. -/
def single (e : MaterialError) : LoadFailure := ⟨[e]⟩

/-- Whether some error is fatal. -/
def hasFatal (f : LoadFailure) : Bool := f.errors.any MaterialError.isFatal

/-- The first error, and how many more there are. -/
def message (f : LoadFailure) : String :=
  match f.errors with
  | []        => "load failed"
  | [e]       => s!"load failed: {e.message}"
  | e :: rest => s!"load failed: {e.message} (and {rest.length} more)"

end LoadFailure

end RenderMaterials
