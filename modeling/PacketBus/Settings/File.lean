import PacketBus.Host.Failure
import PacketBus.Settings.Host

/-! Settings out of a file.
What reading the file came to is given: a fault, or its bytes, which have to be a text.
-/

namespace PacketBus

namespace HostSettings

/-- The settings that a document gives, with the cause of failure as the host reports it. -/
def ofText (text : String) (read : Toml.Reader := Toml.parse) : Except Host.Failure HostSettings :=
  (parse text read).mapError (.badSettings ·.message)

/-- The settings in a file, from what reading the file came to. -/
def ofFile (path : String) (content : Except Fault (List UInt8)) (read : Toml.Reader := Toml.parse)
    : Except Host.Failure HostSettings :=
  match content with
  | .error fault => .error (.badSettings (path ++ ": " ++ fault.message))
  | .ok bytes =>
      match String.fromUTF8? (ByteArray.mk bytes.toArray) with
      | none => .error (.badSettings (path ++ ": stream did not contain valid UTF-8"))
      | some text => ofText text read

end HostSettings

end PacketBus
