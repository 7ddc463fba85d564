/-!
# Access flags

The access flags of a class, field or method are a set of sixteen bits.
-/

namespace MonitorCoverage.ClassFile

structure AccessFlags where
  bits : UInt16
  deriving DecidableEq, Repr, Inhabited

namespace AccessFlags

def isPublic : AccessFlags := ⟨0x0001⟩
def synchronized : AccessFlags := ⟨0x0020⟩
def isAbstract : AccessFlags := ⟨0x0400⟩

/-- Whether every bit of some flags is set. -/
def has (flags wanted : AccessFlags) : Bool := flags.bits &&& wanted.bits = wanted.bits

def isSynchronized (flags : AccessFlags) : Bool := flags.has synchronized

/-- The flags that are modifiers of a method, in the order of a declaration. -/
def methodModifiers : List (AccessFlags × String) :=
  [(⟨0x0001⟩, "public"), (⟨0x0002⟩, "private"), (⟨0x0004⟩, "protected"), (⟨0x0008⟩, "static"),
    (⟨0x0010⟩, "final"), (⟨0x0020⟩, "synchronized"), (⟨0x0040⟩, "bridge"), (⟨0x0080⟩, "varargs"),
    (⟨0x0100⟩, "native"), (⟨0x0400⟩, "abstract"), (⟨0x0800⟩, "strict"), (⟨0x1000⟩, "synthetic")]

/-- The modifiers of a method with these flags, as a declaration writes them. -/
def methodText (flags : AccessFlags) : String :=
  " ".intercalate ((methodModifiers.filter fun m => flags.has m.1).map (·.2))

end AccessFlags

end MonitorCoverage.ClassFile
