import GuixP2p.Dashboard
import GuixP2p.Lib.FileSystem
import GuixP2p.Lib.Lines

/-!
# GuixP2p.Dashboard.SeedConfig

**What the dashboard does to the user's config file.** `src/dashboard/seed_config.rs` on the bytes of the
file and the keys of the document in it, so that it can be said what happens to the rest of the file.
`GuixP2p.Dashboard` has the same functions with no keys but `seed_paths`; `persist_refines` and
`remove_refines` relate the two.

Reading, parsing and the type of `seed_paths` each have a default that is taken in silence. A path is
persisted without damage exactly when none of them is needed (`Kept`).
-/

namespace GuixP2p.SeedConfig

open GuixP2p.Lib

/-! ### Documents -/

/-- An element of an array; `V` are the values that are neither strings nor arrays. -/
inductive Element (V : Type)
  | string (value : Text)
  | other (value : V)

inductive Item (V : Type)
  | array (elements : List (Element V))
  | other (value : V)

/-- The keys of a document at its top. -/
abbrev Document (V : Type) := Table Text (Item V)

/-- The `toml_edit` crate: its values, and how it reads and prints a document. -/
class TomlEditLib where
  Value : Type
  parse : Text → Option (Document Value)
  toString : Document Value → Text

def Element.asStr {V : Type} : Element V → Option Text
  | .string value => some value
  | .other _ => none

def Item.asArray {V : Type} : Item V → Option (List (Element V))
  | .array elements => some elements
  | .other _ => none

def seedPathsKey : Text := "seed_paths".toList

def seedArray {V : Type} (doc : Document V) : Option (List (Element V)) :=
  (doc.lookup seedPathsKey).bind Item.asArray

def seedPaths {V : Type} (doc : Document V) : List Text :=
  match seedArray doc with
  | none => []
  | some existing => existing.filterMap Element.asStr

def writeSeedPaths {V : Type} (doc : Document V) (values : List Text) : Document V :=
  doc.insert seedPathsKey (.array (values.map .string))

/-! ### The file -/

/-- What is at the path of the config file. -/
abbrev ConfigFile := Option Entry

inductive ConfigWrite
  | written
  /-- An error, and what it leaves at the path. -/
  | failed (left : ConfigFile)

/-- How one change of the file goes. -/
structure ConfigWorld where
  /-- The path has a parent, and `create_dir_all` succeeds there. -/
  dirReady : Bool
  /-- The file may be read. -/
  readable : Bool
  write : ConfigWrite

/-- `fs::read_to_string`. -/
def readToString (readable : Bool) : ConfigFile → Option Text
  | some (.file bytes) => if readable then Text.fromUtf8 bytes else none
  | _ => none

/-- `fs::write`, and whether it succeeded. -/
def writeFile (data : Text) (outcome : ConfigWrite) (file : ConfigFile) : ConfigFile × Bool :=
  match file, outcome with
  | some .dir, _ => (file, false)
  | _, .written => (some (.file (Text.utf8 data)), true)
  | _, .failed left => (left, false)

section

variable [TomlEditLib]

open TomlEditLib

/-- A text that does not parse counts as empty. -/
def parseOrNew (content : Text) : Document Value := (parse content).getD ∅

/-- The document that a change starts from. -/
def startDocument (readable : Bool) (file : ConfigFile) : Document Value :=
  parseOrNew ((readToString readable file).getD [])

def addOnce (storePath : Text) (values : List Text) : List Text :=
  if storePath ∈ values then values else values ++ [storePath]

def persistSeedPathToConfig (world : ConfigWorld) (storePath : Text) (file : ConfigFile) : ConfigFile × Bool :=
  if world.dirReady then
    let doc := startDocument world.readable file
    writeFile (toString (writeSeedPaths doc (addOnce storePath (seedPaths doc)))) world.write file
  else (file, false)

def removeSeedPathFromConfig (world : ConfigWorld) (storePath : Text) (file : ConfigFile) : ConfigFile × Bool :=
  match readToString world.readable file with
  | none => (file, true)
  | some content =>
    let doc := parseOrNew content
    match seedArray doc with
    | none => (file, true)
    | some existing =>
      let values := (existing.filterMap Element.asStr).filter fun value => decide (value ≠ storePath)
      writeFile (toString (writeSeedPaths doc values)) world.write file

end

/-! ### The dashboard's model -/

section

variable [TomlEditLib]

/-- The crates as `GuixP2p.Dashboard` sees them. -/
@[reducible] def tomlLib (fromStr : Text → Option (Option (List Text))) : TomlLib where
  Doc := Document TomlEditLib.Value
  parse := TomlEditLib.parse
  new := ∅
  toString := TomlEditLib.toString
  seedPathArray doc := (seedArray doc).map (·.map Element.asStr)
  setSeedPaths := writeSeedPaths
  fromStr := fromStr

theorem seedPathArray_tomlLib (fromStr : Text → Option (Option (List Text))) (doc : Document TomlEditLib.Value) :
    @TomlLib.seedPathArray (tomlLib fromStr) doc = (seedArray doc).map (·.map Element.asStr) := rfl

theorem seedPaths_tomlLib (fromStr : Text → Option (Option (List Text))) (doc : Document TomlEditLib.Value) :
    @GuixP2p.seedPaths (tomlLib fromStr) doc = seedPaths doc := by
  unfold GuixP2p.seedPaths seedPaths
  rw [seedPathArray_tomlLib]
  cases seedArray doc with
  | none => rfl
  | some existing => exact List.filterMap_map

/-- The text of a config file. -/
def configText : ConfigFile → Option Text
  | some (.file bytes) => Text.fromUtf8 bytes
  | _ => none

omit [TomlEditLib] in
theorem readToString_eq (readable : Bool) (file : ConfigFile) :
    readToString readable file = if readable then configText file else none := by
  unfold readToString configText
  split <;> simp

omit [TomlEditLib] in
/-- A write, as to the text of the file. -/
theorem writeFile_refines (data : Text) (outcome : ConfigWrite) (file : ConfigFile) :
    ∃ save, (configText (writeFile data outcome file).1, (writeFile data outcome file).2) = writeConfig data save := by
  unfold writeFile
  split
  · exact ⟨.failed (configText (some .dir)), rfl⟩
  · exact ⟨.written, by simp [writeConfig, configText]⟩
  next left _ => exact ⟨.failed (configText left), rfl⟩

/-- **Refinement.** What happens to the text of the file is what the dashboard's model says. -/
theorem persist_refines (fromStr : Text → Option (Option (List Text))) (world : ConfigWorld) (storePath : Text)
    (file : ConfigFile) :
    let r := persistSeedPathToConfig world storePath file
    ∃ save, (configText r.1, r.2) =
      @GuixP2p.persistSeedPathToConfig (tomlLib fromStr) world.readable save storePath (configText file) := by
  intro r
  cases hready : world.dirReady with
  | false =>
      refine ⟨.failed (configText file), ?_⟩
      simp only [r, persistSeedPathToConfig, hready]
      rfl
  | true =>
      have hvalues := seedPaths_tomlLib fromStr (startDocument world.readable file)
      obtain ⟨save, hsave⟩ := writeFile_refines (TomlEditLib.toString (writeSeedPaths (startDocument world.readable file)
        (addOnce storePath (seedPaths (startDocument world.readable file))))) world.write file
      refine ⟨save, ?_⟩
      simp only [r, persistSeedPathToConfig, hready, if_true, hsave]
      unfold startDocument at hvalues ⊢
      rw [readToString_eq] at hvalues ⊢
      rw [← hvalues]
      rfl

theorem remove_refines (fromStr : Text → Option (Option (List Text))) (world : ConfigWorld) (storePath : Text)
    (file : ConfigFile) :
    let r := removeSeedPathFromConfig world storePath file
    ∃ save, (configText r.1, r.2) =
      @GuixP2p.removeSeedPathFromConfig (tomlLib fromStr) world.readable save storePath (configText file) := by
  intro r
  have hread := readToString_eq world.readable file
  cases hcontent : readToString world.readable file with
  | none =>
      rw [hcontent] at hread
      refine ⟨.written, ?_⟩
      simp only [r, removeSeedPathFromConfig, GuixP2p.removeSeedPathFromConfig, hcontent, ← hread]
  | some content =>
      rw [hcontent] at hread
      have hdoc : @GuixP2p.parseOrNew (tomlLib fromStr) content = parseOrNew content := rfl
      simp only [r, removeSeedPathFromConfig, GuixP2p.removeSeedPathFromConfig, hcontent, ← hread]
      rw [hdoc, seedPathArray_tomlLib]
      cases seedArray (parseOrNew content) with
      | none => exact ⟨.written, rfl⟩
      | some existing =>
          have hvalues : (existing.map Element.asStr).filterMap id = existing.filterMap Element.asStr :=
            List.filterMap_map
          simp only [Option.map_some, hvalues]
          exact writeFile_refines _ world.write file

end

end GuixP2p.SeedConfig
