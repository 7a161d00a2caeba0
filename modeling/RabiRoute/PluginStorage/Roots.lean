import Mathlib.Data.List.DropRight
import RabiRoute.Shared.Fallible
import RabiRoute.Text.UriComponent

/-!
# The folders of plugins

`component` and `pluginStorageRoot` of `pluginStorage.ts`, on both kinds of platform.
-/

namespace RabiRoute.PluginStorage

open UriComponent

/-! ## Components -/

inductive IdentityError where
  /-- Plugin storage identity is empty. -/
  | empty
  /-- The `URIError` of `encodeURIComponent`. -/
  | malformed
deriving DecidableEq

/-- `[1-9¹²³]` -/
def portDigits : JsString := js "123456789¹²³"

/-- The names of the pattern `reserved`. -/
def reservedNames : List JsString :=
  [js "con", js "prn", js "aux", js "nul"] ++ portDigits.map (js "com" ++ [·]) ++
    portDigits.map (js "lpt" ++ [·]) ++ [js "conin$", js "conout$"]

/-- `reserved`: one of the names in any case, at the start, and then a dot or the end.  Beyond ASCII no code
unit is taken for another case of one of the names. -/
def isReserved (value : JsString) : Bool :=
  reservedNames.any fun name ↦
    decide ((value.take name.length).map JsString.lower = name) && (value.drop name.length).head?.all (· == 46)

/-- The length of `/\.+$/` -/
def trailingDots (value : JsString) : Nat := (value.reverse.takeWhile (· == 46)).length

/-- The condition of the first branch of `component`. -/
def isEscaped (value : JsString) (character : Character) (index : Nat) : Bool :=
  character.units.all (fun u ↦ 65 ≤ u && u ≤ 90) || character.units == js "*" ||
    (character.units == js "." && decide ((characters value).length - trailingDots value ≤ index)) ||
    (isReserved value && index == 0)

/-- The two digits of `charCodeAt(0).toString(16)`. -/
def escapedUnit (character : Character) : JsString :=
  37 :: (Nat.toDigits 16 (character.units.headD 0).toNat).flatMap codeUnits

/-- What a character of the id becomes. -/
def part (value : JsString) (character : Character) (index : Nat) : Except IdentityError JsString :=
  if isEscaped value character index then .ok (escapedUnit character)
  else (encodeURIComponent character).elim (.error .malformed) .ok

def component (value : JsString) : Except IdentityError JsString :=
  if value = [] then .error .empty
  else do
    let parts ← (characters value).zipIdx.mapM fun (character, index) ↦ part value character index
    return parts.flatten

/-! ## Paths -/

inductive Platform where
  | posix
  | win32

def Platform.isSeparator : Platform → UInt16 → Bool
  | .posix, u => u == 47
  | .win32, u => u == 47 || u == 92

/-- `path.sep` -/
def Platform.separator : Platform → UInt16
  | .posix => 47
  | .win32 => 92

/-- A single segment of a path, that names a folder of its own. -/
structure IsSegment (platform : Platform) (segment : JsString) : Prop where
  plain : ∀ u ∈ segment, platform.isSeparator u = false
  ne_nil : segment ≠ []
  ne_dot : segment ≠ js "."
  ne_dots : segment ≠ js ".."

/-- A path as `path.resolve` gives it: a drive, a share or nothing, and the folders below it. -/
structure Path where
  volume : JsString
  folders : List JsString
deriving DecidableEq

/-- The text of a path with a folder. -/
def Path.text (platform : Platform) (path : Path) : JsString :=
  path.volume ++ path.folders.flatMap (platform.separator :: ·)

/-- What `path.join` makes of a segment below an absolute path. -/
def enter (folders : List JsString) (segment : JsString) : List JsString :=
  if segment = [] ∨ segment = js "." then folders
  else if segment = js ".." then folders.dropLast
  else folders ++ [segment]

/-- `path.join(path, ...segments)` -/
def Path.join (platform : Platform) (path : Path) (segments : List JsString) : Path :=
  { path with folders := (segments.flatMap (List.splitOnP platform.isSeparator)).foldl enter path.folders }

/-- `layout.stateRoot` is a resolved path. -/
def pluginStorageRoot (platform : Platform) (stateRoot : Path) (pluginId : JsString)
    (instanceId : Option JsString) : Except IdentityError Path := do
  let root := stateRoot.join platform [js "data", js "plugins", ← component pluginId]
  match instanceId with
  | none => return root
  | some instanceId => return root.join platform [js "instances", ← component instanceId]

/-! ## What a file system may take for the same -/

/-- `toLowerCase`, of which the case of ASCII is all that counts here. -/
structure LowerCase where
  apply : JsString → JsString
  ascii : ∀ {text}, (∀ u ∈ text, u < 128) → apply text = text.map JsString.lower

/-- Without the dots and spaces at the end. -/
def stripEnd (name : JsString) : JsString := name.rdropWhile fun u ↦ u == 46 || u == 32

/-- In lower case, and each folder without the dots and spaces at its end. -/
def Path.folded (lowerCase : LowerCase) (path : Path) : Path where
  volume := lowerCase.apply path.volume
  folders := path.folders.map fun folder ↦ stripEnd (lowerCase.apply folder)

/-- The name of a device of Windows, with an extension or without. -/
def isDeviceName (name : JsString) : Bool :=
  reservedNames.contains (stripEnd ((name.takeWhile (· != 46)).map JsString.lower))

end RabiRoute.PluginStorage
