import PacketBus.Settings.Field
import PacketBus.Settings.Link

/-! Settings of the host tools, read from a document.
Every field is optional, and the settings are the defaults with the fields that are present put over
them, in the section of the link as well as outside it.
-/

namespace PacketBus

open Toml (Table Value)
open Settings (readField checkOthers)

namespace LinkSettings

/-- The settings with those put over the defaults that are present. -/
def ofFields (debug? timeout? retries? : Option Value)
    : Except Settings.Failure LinkSettings := do
  let defaults : LinkSettings := {}
  return {
    debug := ← readField "debug" (·.boolean?) defaults.debug debug?
    responseTimeout :=
      ← readField "response_timeout_ms" (·.word32?) defaults.responseTimeout timeout?
    retries := ← readField "max_retries" (·.word8?) defaults.retries retries? }

/-- The keys of the fields, in the order of the fields. -/
def keys : List String := ["debug", "response_timeout_ms", "max_retries"]

/-- The settings that a table gives. -/
def ofTable (table : Table) : Except Settings.Failure LinkSettings := do
  checkOthers keys table
  ofFields (table.lookup "debug") (table.lookup "response_timeout_ms")
    (table.lookup "max_retries")

/-- The settings that a value gives: a table by its keys, an array by the places of its items, and a
moment as a table without entries. -/
def ofValue : Value → Except Settings.Failure LinkSettings
  | .table entries => ofTable entries
  | .array items => ofFields items[0]? items[1]? items[2]?
  | .moment _ => .ok {}
  | _ => .error (.field "bus")

end LinkSettings

/-- Settings of the host tools. -/
structure HostSettings where
  /-- Host and port of the device. -/
  address : String := "127.0.0.1:8888"
  /-- A serial line to be used instead of the address. -/
  serial? : Option String := none
  baud : UInt32 := 1000000
  link : LinkSettings := {}
  /-- What is logged. -/
  logFilter : String := "info"
  deriving DecidableEq, Repr

namespace HostSettings

/-- The keys of the fields. -/
def keys : List String := ["address", "serial", "baud", "bus", "log_filter"]

/-- The settings that a table gives. -/
def ofTable (table : Table) : Except Settings.Failure HostSettings := do
  let defaults : HostSettings := {}
  checkOthers keys table
  return {
    address := ← readField "address" (·.text?) defaults.address (table.lookup "address")
    serial? := ← readField "serial" (·.text?.map some) defaults.serial? (table.lookup "serial")
    baud := ← readField "baud" (·.word32?) defaults.baud (table.lookup "baud")
    link := ← (table.lookup "bus").elim (.ok defaults.link) LinkSettings.ofValue
    logFilter := ← readField "log_filter" (·.text?) defaults.logFilter (table.lookup "log_filter") }

/-- The settings that a document gives, as it is read. -/
def parse (text : String) (read : Toml.Reader := Toml.parse)
    : Except Settings.Failure HostSettings :=
  match read text with
  | .ok table => ofTable table
  | .error refusal => .error (.document refusal)

end HostSettings

end PacketBus
