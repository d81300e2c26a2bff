import OverloadResolution.Registry.Basic

/-!
# The builtin registry

One reader for each primitive type.  The integer types have the two's-complement ranges of their
widths, and the widest takes every integer of 64 bits.
-/

set_option autoImplicit false

namespace OverloadResolution.Registry

/-- The primitive types with their readers, in the order of registration. -/
def builtinRegistrations : List Registration :=
  [⟨.int, some (.integral .int (-2147483648) 2147483647)⟩,
    ⟨.byte, some (.integral .byte (-128) 127)⟩,
    ⟨.short, some (.integral .short (-32768) 32767)⟩,
    ⟨.boolean, some .boolean⟩,
    ⟨.string, some .string⟩,
    ⟨.long, some (.integral .long Int64.minValue Int64.maxValue)⟩,
    ⟨.double, some (.floating .double false)⟩,
    ⟨.float, some (.floating .float true)⟩]

/-- The registry of the primitive types. -/
def builtin : Registry := ofHistory builtinRegistrations

end OverloadResolution.Registry
