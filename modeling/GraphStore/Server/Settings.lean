import GraphStore.Engine.Basic
import GraphStore.Query.Lexer
import GraphStore.Toml.Grammar
import GraphStore.Wire.Address
import GraphStore.Wire.Frame

/-!
# Settings of the server

Settings come from a document, in which every key may be missing, and then from variables of the
environment. The limits must not be zero.
-/

set_option autoImplicit false

namespace GraphStore

open Text

/-- The settings of a server. -/
structure Settings where
  host : HostAddress := .loopback
  port : UInt16 := 9898
  /-- The number of connections that may wait to be accepted. -/
  backlog : UInt32 := 10
  maxConnections : Nat := 64
  /-- The number of queries that may wait for the worker. -/
  queueCapacity : Nat := 128
  readBufferSize : Nat := 4096
  maxFrameLength : Nat := Frame.defaultLimit
  dataDirectory : String := "./data"
  /-- The collection in which every query is carried out. -/
  collection : String := "default"
  separator : Query.Separator := .semicolon
  /-- The byte order of the collections that the server makes. -/
  endian : Endian := .little
  syncWrites : Bool := false
deriving Repr, DecidableEq

/-- Why there are no settings to work with. -/
inductive SettingsFault where
  /-- The document cannot be read as text. -/
  | unreadable
  /-- The document is not well formed, or a value in it has the wrong type. -/
  | malformed
  | invalidVariable (name value : String)
  | zero (name : String)
deriving Repr, DecidableEq

namespace SettingsFault

/-- The stable code of a fault. -/
def code : SettingsFault → String
  | unreadable => "CONFIG_READ"
  | malformed => "CONFIG_PARSE"
  | invalidVariable .. => "CONFIG_INVALID_ENV"
  | zero _ => "CONFIG_ZERO"

/-- The message of a fault, where the code does not say all. -/
def message? : SettingsFault → Option String
  | unreadable => none
  | malformed => none
  | invalidVariable name value => some s!"Invalid value {quoted value} for {name}"
  | zero name => some s!"{name} must be greater than zero"

end SettingsFault

namespace Settings

/-- The bound of numbers of 64 bits. -/
def wordBound : Nat := 0x10000000000000000

def address (settings : Settings) : SocketAddress := ⟨settings.host, settings.port⟩

def engineOptions (settings : Settings) : EngineOptions := ⟨settings.endian, settings.syncWrites⟩

/-- The limits by name, in the order in which they are checked. -/
def limits (settings : Settings) : List (String × Nat) :=
  [("backlog", settings.backlog.toNat), ("max_connections", settings.maxConnections),
    ("queue_capacity", settings.queueCapacity), ("read_buffer_size", settings.readBufferSize),
    ("max_frame_length", settings.maxFrameLength)]

/-- Refuses settings with a limit that is zero. The first one is named. -/
def check (settings : Settings) : Except SettingsFault Unit :=
  match settings.limits.find? (·.2 == 0) with
  | some limit => .error (.zero limit.1)
  | none => .ok ()

def toJson (settings : Settings) : Json :=
  .ofMembers
    ([("host", .ofString settings.host.text), ("port", .ofNat settings.port.toNat)] ++
      settings.limits.map (fun limit => (limit.1, .ofNat limit.2)) ++
      [("data_dir", .ofString settings.dataDirectory),
        ("collection", .ofString settings.collection),
        ("separator", .ofString settings.separator.name),
        ("endian", .ofString settings.endian.name), ("sync_writes", .bool settings.syncWrites),
        ("addr", .ofString settings.address.text), ("options", settings.engineOptions.toJson)])

/-!
## Settings in a document
-/

def text? : Toml → Option String
  | .string text => some text
  | _ => none

/-- The number of a value, which lies below a bound. -/
def number? (bound : Nat) : Toml → Option Nat
  | .integer value => if 0 ≤ value then below? bound value.toNat else none
  | _ => none

def flag? : Toml → Option Bool
  | .boolean value => some value
  | _ => none

def isVoid : Toml → Bool
  | .array items => items.isEmpty
  | .table _ entries => entries.isEmpty
  | _ => false

/-- A name, alone or as the only key of a table without a value. -/
def choice? : Toml → Option String
  | .string name => some name
  | .table _ [(name, value)] => if isVoid value then some name else none
  | _ => none

/-- The value of a key, or another value where it is missing. -/
def valueOf {α : Type} (name : String) (read? : Toml → Option α) (otherwise : α)
    (entries : Toml.Entries) : Option α :=
  match Toml.find? name entries with
  | some value => read? value
  | none => some otherwise

/-- The settings in a table. Other keys are passed over. -/
def ofEntries? (entries : Toml.Entries) : Option Settings := do
  let usual : Settings := {}
  let host? (value : Toml) : Option HostAddress := (text? value).bind HostAddress.parse?
  let word? : Toml → Option Nat := number? wordBound
  return {
    host := ← valueOf "host" host? usual.host entries
    port := .ofNat (← valueOf "port" (number? 0x10000) usual.port.toNat entries)
    backlog := .ofNat (← valueOf "backlog" (number? 0x100000000) usual.backlog.toNat entries)
    maxConnections := ← valueOf "max_connections" word? usual.maxConnections entries
    queueCapacity := ← valueOf "queue_capacity" word? usual.queueCapacity entries
    readBufferSize := ← valueOf "read_buffer_size" word? usual.readBufferSize entries
    maxFrameLength := ← valueOf "max_frame_length" word? usual.maxFrameLength entries
    dataDirectory := ← valueOf "data_dir" text? usual.dataDirectory entries
    collection := ← valueOf "collection" text? usual.collection entries
    separator := ←
      valueOf "separator" (fun value => (choice? value).bind Query.Separator.ofName?)
        usual.separator entries
    endian := ←
      valueOf "endian" (fun value => (choice? value).bind Endian.ofName?) usual.endian entries
    syncWrites := ← valueOf "sync_writes" flag? usual.syncWrites entries }

def ofDocument (text : String) : Except SettingsFault Settings :=
  match (Toml.parse? text).bind ofEntries? with
  | some settings => .ok settings
  | none => .error .malformed

def load (path : Path) : Disk (Except SettingsFault Settings) := do
  match ← Disk.content path with
  | .error _ => return .error .unreadable
  | .ok bytes =>
      match Utf8.decode bytes with
      | .ok text => return ofDocument text
      | .error _ => return .error .unreadable

/-!
## Settings in the environment
-/

/-- The number that a text spells, which lies below a bound. -/
def spelled? (bound : Nat) (text : String) : Option Nat := (parseNat? text).bind (below? bound)

def spelledFlag? (text : String) : Option Bool :=
  match text with
  | "true" => some true
  | "false" => some false
  | _ => none

/-- A variable of the environment, and the settings that it gives in the place of others. -/
structure Variable where
  name : String
  /-- Whether blanks around the value belong to it. -/
  verbatim : Bool := false
  apply : String → Settings → Option Settings

/-- A variable that holds one of the limits of 64 bits. -/
def limitVariable (name : String) (change : Nat → Settings → Settings) : Variable where
  name
  apply value settings := do return change (← spelled? wordBound value) settings

def allVariables : List Variable :=
  [{ name := "STRAND_HOST"
     apply value settings := do return { settings with host := ← HostAddress.parse? value } },
   { name := "STRAND_PORT"
     apply value settings := do
       return { settings with port := .ofNat (← spelled? 0x10000 value) } },
   { name := "STRAND_BACKLOG"
     apply value settings := do
       return { settings with backlog := .ofNat (← spelled? 0x100000000 value) } },
   limitVariable "STRAND_MAX_CONNECTIONS"
     fun value settings => { settings with maxConnections := value },
   limitVariable "STRAND_QUEUE_CAPACITY"
     fun value settings => { settings with queueCapacity := value },
   limitVariable "STRAND_READ_BUFFER_SIZE"
     fun value settings => { settings with readBufferSize := value },
   limitVariable "STRAND_MAX_FRAME_LENGTH"
     fun value settings => { settings with maxFrameLength := value },
   { name := "STRAND_DATA_DIR", verbatim := true
     apply value settings := some { settings with dataDirectory := value } },
   { name := "STRAND_COLLECTION", verbatim := true
     apply value settings := some { settings with collection := value } },
   { name := "STRAND_SEPARATOR"
     apply value settings := do
       return { settings with separator := ← (Query.Separator.parse value).toOption } },
   { name := "STRAND_ENDIAN"
     apply value settings := do
       return { settings with endian := ← (Endian.parse value).toOption } },
   { name := "STRAND_SYNC_WRITES"
     apply value settings := do return { settings with syncWrites := ← spelledFlag? value } }]

/-- Takes the value of one variable, if it is set. -/
def withVariable (environment : String → Option String) (settings : Settings)
    (source : Variable) : Except SettingsFault Settings :=
  match environment source.name with
  | none => .ok settings
  | some value =>
      match source.apply (if source.verbatim then value else trim value) settings with
      | some changed => .ok changed
      | none => .error (.invalidVariable source.name value)

/-- Takes the values of all variables that are set, up to the first that is no value. -/
def withEnvironment (settings : Settings) (environment : String → Option String) :
    Except SettingsFault Settings :=
  allVariables.foldlM (withVariable environment) settings

end Settings

end GraphStore
