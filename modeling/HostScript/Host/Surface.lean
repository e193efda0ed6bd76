import HostScript.Host.Type
import HostScript.Store

/-!
# Host/Surface — what a host offers to the scripts of a runtime

Types are published in the tree of global names under their dotted names.  An injected instance gets
a namespace named after its type that binds the name of each of its methods to the instance.
-/

namespace HostScript

/-- The extension of script files unless the host chooses another. -/
def defaultExtension : String := "brisk"

/-- The namespace that a path of names leads to, making the ones that are missing; none where a name
on the way is bound to anything else. -/
def Heap.descend (h : Heap) (id : NamespaceId) : List String → Option NamespaceId × Heap
  | [] => (some id, h)
  | part :: rest =>
    match h.child id part with
    | (some inner, h) => h.descend inner rest
    | (none, h) => (none, h)

/-- A list of names as it is described. -/
def describeNames (names : List String) : String :=
  "[" ++ ", ".intercalate (names.map Text.quoted) ++ "]"

namespace Store

/-- Publishes a type among the global names of a runtime: its handle is bound to the last part of its
name, in the namespace that the other parts lead to.  A type that describes values without a type of
their own is also listed for them, once. -/
def publish (s : Store) (rt : RuntimeId) (info : TypeInfo) : Store :=
  let s : Store := s.changeRuntime rt fun runtime =>
    if info.primitive?.isSome && !(runtime.bound.any (·.id = info.id)) then
      { runtime with bound := runtime.bound ++ [info] }
    else runtime
  let parts := Text.dottedParts info.fullName
  let globals := (s.runtime rt).globals
  match s.onHeap (·.descend globals parts.dropLast) with
  | (some space, s) => s.bind space info.name (.type info)
  | (none, s) => s

/-- Makes the methods of an instance callable by name. -/
def inject (s : Store) (registry : Registry) (rt : RuntimeId) (object : HostObject) : Store :=
  let s : Store :=
    let globals := (s.runtime rt).globals
    match s.onHeap (·.child globals object.type.name) with
    | (some space, s) =>
      (registry.type object.type).methods.foldl (fun s m => s.bind space m.name (.object object)) s
    | (none, s) => s
  s.changeRuntime rt fun runtime => { runtime with instances := runtime.instances ++ [object] }

/-- A runtime that offers the types of libraries, in order, and then injected instances, in order. -/
def buildRuntime (s : Store) (registry : Registry) (libraries : List (List TypeInfo))
    (instances : List HostObject) (extension : String) : RuntimeId × Store :=
  let (globals, s) := s.newSpace
  let extension := String.ofList (extension.toList.dropWhile (· == '.'))
  let (rt, s) := s.newRuntime ⟨globals, [], [], extension, .empty, true⟩
  let s := libraries.flatten.foldl (fun s info => s.publish rt info) s
  (rt, instances.foldl (fun s object => s.inject registry rt object) s)

/-- The description of a runtime: its global names and the number of its instances. -/
def describeRuntime (s : Store) (rt : RuntimeId) : String :=
  let runtime := s.runtime rt
  "Runtime \x7b globals: " ++ describeNames (s.space runtime.globals).names ++ ", instances: " ++
    toString runtime.instances.length ++ ", .. \x7d"

end Store

end HostScript
