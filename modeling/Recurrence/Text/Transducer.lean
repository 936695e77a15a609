/-!
# Transducers

A transducer reads a text character by character. Behind each character it is in some mode, which
depends on the mode before, and it has written some symbols. A character that its mode does not
admit makes it fail, and so does the end of the text in a mode that does not admit the end.
-/

namespace Recurrence

/-- A reader of texts that is in a mode and writes symbols. -/
structure Transducer (Mode Symbol : Type) where
  /-- The symbols that are written for a character, and the mode behind it. -/
  step : Mode → Char → Option (List Symbol × Mode)
  /-- The symbols that are written at the end of a text. -/
  finish : Mode → Option (List Symbol)

namespace Transducer

variable {Mode Symbol : Type}

/-- The symbols that a transducer writes for a text that it begins to read in `mode`. -/
def run (reader : Transducer Mode Symbol) (mode : Mode) : List Char → Option (List Symbol)
  | [] => reader.finish mode
  | c :: rest =>
    (reader.step mode c).bind fun (written, next) => (reader.run next rest).map (written ++ ·)

end Transducer

end Recurrence
