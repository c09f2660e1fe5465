import GridPress.Element

namespace GridPress

-- A step that adds to a destination, whose content is the state.
abbrev SinkM := ExceptT Error (StateM Bytes)

namespace SinkM

def write (bs : Bytes) : SinkM Unit :=
  modify (· ++ bs)

def writeWord (t : Datatype) (w : Nat) : SinkM Unit :=
  write (Bytes.ofNat t.size w)

-- Writes the word of each element, up to the first that has none.
def writeEach (t : Datatype) (f : α → Result Nat) : List α → SinkM Unit
  | [] => return ()
  | a :: as => do
    writeWord t (← liftExcept (f a))
    writeEach t f as

def writeWords (t : Datatype) : List Nat → SinkM Unit :=
  writeEach t .ok

end SinkM
end GridPress
