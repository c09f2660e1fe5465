namespace GridPress.Codec

-- Appends `n` bytes, each equal to the one `distance` places before it.
def copyBack (distance : Nat) : Nat → Array UInt8 → Array UInt8
  | 0, out => out
  | n + 1, out => copyBack distance n (out.push (out.getD (out.size - distance) 0))

end GridPress.Codec
