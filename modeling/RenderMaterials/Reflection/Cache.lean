import RenderMaterials.Error
import RenderMaterials.Hash.Content
import RenderMaterials.Shader.Bytecode
import RenderMaterials.Table

/-!
# Reflection cache

The bindings of compiled code, by the hash of its bytes: shaders with the same code share an entry.
The names of shaders are kept beside the entries, so that an entry is dropped when the last shader
that uses it is forgotten.
-/

namespace RenderMaterials

/-- Bindings by the hash of their code. -/
structure ReflectionCache where
  entries          : Table UInt64 (List Binding) := []
  identitiesByHash : Table UInt64 (List String) := []
  hashByIdentity   : Table String UInt64 := []
  hits             : Nat := 0
  misses           : Nat := 0
  deriving DecidableEq, Repr

namespace ReflectionCache

/-- Takes an identity from a hash; its entry goes with the last one.  Says whether an entry went. -/
def detach (c : ReflectionCache) (identity : String) (hash : UInt64) : Bool × ReflectionCache :=
  let left := ((c.identitiesByHash.value? hash).getD []).filter (· ≠ identity)
  if left = [] then
    (c.entries.has hash,
      { c with
        entries          := c.entries.without hash
        identitiesByHash := c.identitiesByHash.without hash })
  else (false, { c with identitiesByHash := c.identitiesByHash.assign hash left })

/-- Puts an identity to a hash, and takes it from the one that it was put to before. -/
def bind (c : ReflectionCache) (identity : String) (hash : UInt64) : ReflectionCache :=
  let previous := c.hashByIdentity.value? identity
  let c := { c with hashByIdentity := c.hashByIdentity.assign identity hash }
  let c := match previous with
    | some h => if h = hash then c else (c.detach identity h).2
    | none   => c
  let known := (c.identitiesByHash.value? hash).getD []
  if known.contains identity then c
  else { c with identitiesByHash := c.identitiesByHash.assign hash (known ++ [identity]) }

/-- What a cache answers: the result, and whether the reflector was asked. -/
structure Answer where
  result : Except MaterialError (List Binding)
  asked  : Bool
  cache  : ReflectionCache

/-- The bindings of code, reflected if its hash has no entry.  A failure is not remembered. -/
def getOrReflect (c : ReflectionCache) (reflect : Reflector) (code : Bytecode) (identity : String) :
    Answer :=
  let hash := contentHash code.bytes
  match c.entries.value? hash with
  | some bindings =>
    -- an identity that is at its hash stays there, and nothing is written
    let c := if c.hashByIdentity.value? identity = some hash then c else c.bind identity hash
    ⟨.ok bindings, false, { c with hits := c.hits + 1 }⟩
  | none =>
    let c := { c with misses := c.misses + 1 }
    match reflect code with
    | .error reason => ⟨.error (.reflection identity reason), true, c⟩
    | .ok bindings  =>
      ⟨.ok bindings, true, { c with entries := c.entries.assign hash bindings }.bind identity hash⟩

/-- Forgets an identity; says whether an entry went with it. -/
def invalidate (c : ReflectionCache) (identity : String) : Bool × ReflectionCache :=
  match c.hashByIdentity.value? identity with
  | none      => (false, c)
  | some hash =>
    { c with hashByIdentity := c.hashByIdentity.without identity }.detach identity hash

/-- Drops the entries and keeps the counters. -/
def clear (c : ReflectionCache) : ReflectionCache := { hits := c.hits, misses := c.misses }

/-- Whether an identity is known. -/
def containsIdentity (c : ReflectionCache) (identity : String) : Bool :=
  c.hashByIdentity.has identity

end ReflectionCache

end RenderMaterials
