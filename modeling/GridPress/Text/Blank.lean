namespace GridPress.Text

def blankRanges : List (Nat × Nat) :=
  [(0x9, 0xD), (0x20, 0x20), (0x85, 0x85), (0xA0, 0xA0), (0x1680, 0x1680), (0x2000, 0x200A),
    (0x2028, 0x2029), (0x202F, 0x202F), (0x205F, 0x205F), (0x3000, 0x3000)]

def isBlank (c : Char) : Bool :=
  blankRanges.any fun r => r.1 ≤ c.toNat && c.toNat ≤ r.2

-- The characters from the first to the last that is not blank.
def strip (cs : List Char) : List Char :=
  ((cs.dropWhile isBlank).reverse.dropWhile isBlank).reverse

def trim (s : String) : String :=
  String.ofList (strip s.toList)

-- The pieces between the separators. There is one more than there are separators.
def separate (sep : Char) : List Char → List (List Char)
  | [] => [[]]
  | c :: cs =>
    if c = sep then
      [] :: separate sep cs
    else
      match separate sep cs with
      | [] => [[c]]
      | piece :: pieces => (c :: piece) :: pieces

theorem separate_ne_nil (sep : Char) (cs : List Char) : separate sep cs ≠ [] := by
  cases cs with
  | nil => simp [separate]
  | cons c cs =>
    simp only [separate]
    split
    · simp
    · split <;> simp

end GridPress.Text
