import FlatTree.Session.Event

/-!
# Shared memory regions

A region is attached under a name without slashes and zero characters, read, and released.

- `RegionSource`: attaches and releases regions, in any monad.
- `Region.objectName`: the system's name of a region.
- `RegionSource.shared`: the source that opens system objects and reports what it does.
-/

namespace FlatTree

/-- Something that hands out named regions of bytes. A failed attach gives its reason. -/
structure RegionSource (m : Type → Type) where
  attach : (name : String) → m (Except String ByteArray)
  release : (name : String) → m Unit

namespace Region

/-- The system's name of a region, or why there is none. -/
def objectName (name : String) : Except String String :=
  if name.contains '/' then .error "region name must not contain '/'"
  else
    let object := "/" ++ name
    match object.toUTF8.data.findIdx? (· = 0) with
    | some position => .error s!"nul byte found in provided data at position: {position}"
    | none => .ok object

end Region

/-- The source of regions that `openObject` finds under the system's names. -/
def RegionSource.shared {m : Type → Type} [Monad m]
    (openObject : String → m (Except String ByteArray)) (emit : Event → m Unit) :
    RegionSource m where
  attach name := do
    match Region.objectName name with
    | .error reason => return .error reason
    | .ok object =>
      match ← openObject object with
      | .error reason => return .error reason
      | .ok bytes =>
        emit (.attached name bytes.size)
        return .ok bytes
  release name := emit (.released name)

end FlatTree
