/-!
What can go wrong when devices are read or configured.

* `Error`: every failure of the library by its cause; `Error.message` is the wording and
  `Error.kind` the coarse class.
* `Error.passes`: the failures after which a device may still be found elsewhere.
* `SystemFault`: a failure that the operating system reports, by its number or in words.
-/

namespace WireGuardControl

/-- A failure of a call to the operating system. -/
inductive SystemFault where
  /-- The error number of the system. -/
  | code (number : Int32)
  /-- A failure that has words and no number. -/
  | words (text : String)
  deriving DecidableEq

/-- The fault in words. -/
def SystemFault.message : SystemFault → String
  | .code number => s!"os error {number.toInt}"
  | .words text => text

/-- A failure of an operation on devices. -/
inductive Error where
  /-- The device does not exist, or is no WireGuard device of this backend. -/
  | notExist
  /-- A key has `length` octets. -/
  | invalidKeyLength (length : Nat)
  /-- A text is no key. -/
  | invalidKey (detail : String)
  /-- A text is no network. -/
  | invalidCidr (detail : String)
  /-- A text is no endpoint. -/
  | invalidEndpoint (detail : String)
  /-- An argument cannot be used. -/
  | invalidArgument (detail : String)
  /-- An answer cannot be read. -/
  | decode (detail : String)
  /-- An answer reports the error number `code` for an operation. -/
  | errno (operation : String) (code : Int32)
  /-- A call to the system failed. -/
  | io (fault : SystemFault)
  /-- The backend is not available on this platform. -/
  | unimplemented (backend info : String)
  deriving DecidableEq

/-- The coarse class of a failure. -/
inductive Error.Kind where
  /-- The backend does not have the device. -/
  | notExist
  /-- The caller gave a malformed argument. -/
  | invalidArgument
  /-- An answer is malformed. -/
  | decode
  /-- The system reported a failure. -/
  | transport
  /-- The backend is not available. -/
  | unimplemented
  deriving DecidableEq, Repr

namespace Error

/-- The platform that messages name. -/
def platform : String := "linux/x86_64"

/-- The failure in words. -/
def message : Error → String
  | notExist => "device does not exist"
  | invalidKeyLength length => s!"invalid key length: expected 32, got {length}"
  | invalidKey detail => "invalid key: " ++ detail
  | invalidCidr detail => "invalid CIDR: " ++ detail
  | invalidEndpoint detail => "invalid endpoint: " ++ detail
  | invalidArgument detail => "invalid argument: " ++ detail
  | decode detail => "protocol decode error: " ++ detail
  | errno operation code => operation ++ s!": errno={code.toInt}"
  | io fault => "I/O error: " ++ fault.message
  | unimplemented backend info =>
      backend ++ ": not implemented on " ++ platform ++ ": " ++ info

/-- The class of a failure. -/
def kind : Error → Kind
  | notExist => .notExist
  | invalidKeyLength _ | invalidKey _ | invalidCidr _ | invalidEndpoint _
  | invalidArgument _ => .invalidArgument
  | decode _ => .decode
  | errno _ _ | io _ => .transport
  | unimplemented _ _ => .unimplemented

/-- Whether a failure says that the device was not found. -/
def isNotExist (e : Error) : Bool := e.kind == .notExist

/-- Whether another backend may be asked after this failure. -/
def passes (e : Error) : Bool :=
  match e.kind with
  | .notExist | .unimplemented => true
  | _ => false

/-- Whether a failure is a system call's and carries the error number `number`. -/
def hasCode (e : Error) (number : Int32) : Bool :=
  match e with
  | io (.code n) => n == number
  | _ => false

end Error

end WireGuardControl
