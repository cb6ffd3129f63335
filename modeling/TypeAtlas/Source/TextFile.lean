import TypeAtlas.Source.Disk
import TypeAtlas.Text.Undecodable

/-!
# Files as texts

A file that is read as a text has its octets decoded and its line ends unified.  It has no text if
the file cannot be read, or if its octets are ill-formed somewhere.
-/

namespace TypeAtlas

/-- Why a file has no text. -/
inductive TextFault where
  | unreadable (fault : FileFault)
  | undecodable (message : String)
  deriving Repr, DecidableEq

def TextFault.message (path : String) : TextFault → String
  | .unreadable fault => fault.message path
  | .undecodable message => message

def textOfFile : Except FileFault (List UInt8) → Except TextFault String
  | .error fault => .error (.unreadable fault)
  | .ok octets =>
    match Utf8.decode? octets with
    | none => .error (.undecodable (Utf8.faultMessage octets))
    | some text => .ok (String.ofList (Text.unifyLineEnds text.toList))

def Disk.readText (disk : Disk) (path : String) : Except TextFault String :=
  textOfFile (disk.read path)

end TypeAtlas
