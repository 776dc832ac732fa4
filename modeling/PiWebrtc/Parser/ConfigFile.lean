import PiWebrtc.Lib.ConfigFormat

namespace PiWebrtc.Parser

open ConfigFormat

/-!
# The configuration file

`ParseArgs` turns the YAML mapping of `--config` into text, a line `key=value` for each scalar and
for each scalar in a list, and has that text read by `bpo::parse_config_file`.  Keys and values go
into the text as they are; but there `#` begins a comment, and lines, brackets and blanks have
their meaning.

* `configFile_iff` — the settings of the mapping are the ones that are read, exactly if all of them
  are plain.
* `configFile_cut` — with ordinary keys, a value that has a `#` in it is cut there, without an
  error.

What yaml-cpp makes of the file is the mapping, as it is given here; `bpo::parse_config_file` is
a parameter.
-/

/-- A node of the mapping: the text of a scalar, a list with the texts of its scalars, or something
    else. -/
inductive YamlNode where
  | scalar (text : List Char)
  | sequence (items : List (Option (List Char)))
  | other
  deriving DecidableEq, Repr

/-- The lines for one node. -/
def iniNode (key : List Char) (iniStr : List Char) : YamlNode → List Char
  | .scalar text => iniStr ++ (key ++ ['='] ++ text ++ ['\n'])
  | .sequence items =>
    items.foldl (fun iniStr item =>
      match item with
      | some text => iniStr ++ (key ++ ['='] ++ text ++ ['\n'])
      | none => iniStr) iniStr
  | .other => iniStr

/-- `ini_str`. -/
def iniStr (yaml : List (List Char × YamlNode)) : List Char :=
  yaml.foldl (fun iniStr entry => iniNode entry.1 iniStr entry.2) []

/-- What a node sets its key to. -/
def YamlNode.values : YamlNode → List (List Char)
  | .scalar text => [text]
  | .sequence items => items.filterMap id
  | .other => []

/-- The settings of a mapping, in their order. -/
def settingsOf (yaml : List (List Char × YamlNode)) : List Setting :=
  yaml.flatMap fun entry => entry.2.values.map fun value => (entry.1, value)

/-- What is relied on: `bpo::parse_config_file` reads the format as it is documented. -/
def ReadsFormat (parseConfigFile : List Char → Option (List Setting)) : Prop :=
  ∀ text, parseConfigFile text = read text

section Text

theorem iniNode_eq (key iniStr : List Char) (node : YamlNode) :
    iniNode key iniStr node =
      iniStr ++ write (node.values.map fun value => (key, value)) := by
  cases node with
  | scalar text => simp [iniNode, YamlNode.values, write, settingText]
  | sequence items =>
    rw [iniNode, YamlNode.values]
    induction items generalizing iniStr with
    | nil => exact (List.append_nil _).symm
    | cons item items ih =>
      rw [List.foldl_cons]
      cases item with
      | none => exact ih iniStr
      | some text =>
        rw [ih, List.append_assoc]
        simp [write, settingText]
  | other => exact (List.append_nil _).symm

/-- **The text of a mapping** is what its settings are written as. -/
theorem iniStr_eq (yaml : List (List Char × YamlNode)) : iniStr yaml = write (settingsOf yaml) := by
  suffices h : ∀ acc, yaml.foldl (fun iniStr entry => iniNode entry.1 iniStr entry.2) acc =
      acc ++ write (settingsOf yaml) from h []
  induction yaml with
  | nil => exact fun acc => (List.append_nil acc).symm
  | cons entry yaml ih =>
    intro acc
    rw [List.foldl_cons, ih, iniNode_eq, List.append_assoc, ← write_append]
    rfl

end Text

/-- **The file is read as it is written, exactly** if each of its settings is plain: a key without
    `=`, and a key and a value of one line, without `#` and without blanks around them, that do not
    look like a section. -/
theorem configFile_iff (parseConfigFile : List Char → Option (List Setting))
    (hreads : ReadsFormat parseConfigFile) (yaml : List (List Char × YamlNode)) :
    parseConfigFile (iniStr yaml) = some (settingsOf yaml) ↔ ∀ o ∈ settingsOf yaml, Plain o := by
  rw [hreads, iniStr_eq]
  exact read_write_iff _

/-- A password and the rooms. -/
def roomsAndPassword : List (List Char × YamlNode) :=
  [("mqtt-password".toList, .scalar "pass#1".toList),
    ("cloudflare-room".toList, .sequence [some "lab".toList, none, some "door".toList])]

theorem configFile_iff_roomsAndPassword :
    read (iniStr roomsAndPassword) = some (settingsOf roomsAndPassword) ↔
      ∀ o ∈ settingsOf roomsAndPassword, Plain o :=
  configFile_iff read (fun _ => rfl) roomsAndPassword

/-- **Values are cut.** If the keys are ordinary and the values of one line, the file is always
    accepted, and each value is read up to its first `#`, without the blanks around it. -/
theorem configFile_cut (parseConfigFile : List Char → Option (List Setting))
    (hreads : ReadsFormat parseConfigFile) (yaml : List (List Char × YamlNode))
    (hplain : ∀ o ∈ settingsOf yaml, PlainName o.1 ∧ '\n' ∉ o.2) :
    parseConfigFile (iniStr yaml) =
      some ((settingsOf yaml).map fun o => (o.1, trim (o.2.takeWhile (· ≠ '#')))) := by
  rw [hreads, iniStr_eq]
  exact read_write_of_plainName hplain

theorem plainName_roomsAndPassword :
    ∀ o ∈ settingsOf roomsAndPassword, PlainName o.1 ∧ '\n' ∉ o.2 := by
  intro o ho
  have hpassword : PlainName "mqtt-password".toList := by constructor <;> decide
  have hroom : PlainName "cloudflare-room".toList := by constructor <;> decide
  rcases List.mem_cons.mp ho with rfl | ho
  · exact ⟨hpassword, by decide⟩
  rcases List.mem_cons.mp ho with rfl | ho
  · exact ⟨hroom, by decide⟩
  rw [List.mem_singleton.mp ho]
  exact ⟨hroom, by decide⟩

/-- The password is read as `pass`. -/
theorem configFile_cut_roomsAndPassword :
    read (iniStr roomsAndPassword) =
      some [("mqtt-password".toList, "pass".toList), ("cloudflare-room".toList, "lab".toList),
        ("cloudflare-room".toList, "door".toList)] :=
  configFile_cut read (fun _ => rfl) roomsAndPassword plainName_roomsAndPassword

end PiWebrtc.Parser
