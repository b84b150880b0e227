/-
Why a text in one of the formats of sources has no value.
-/
import Shorthand.Text.Class

namespace Shorthand.Data

/-- What keeps a text from being read although it follows its format, or may do so. -/
inductive Obstacle where
  /-- A scalar is marked as a truth value and is none. -/
  | notBool (t : Text)
  /-- A scalar is marked as a number and has no digit at all. -/
  | blankNumber
  /-- A scalar is marked as a time and is none. -/
  | notTime
  /-- A mapping is marked as a time. -/
  | mappingAsTime
  /-- A character is given by a number of more than 31 bits. -/
  | codePointTooLarge
  /-- A part of a sexagesimal number counts more than a float can hold. -/
  | unitTooLarge
  /-- A value has too many others around it. -/
  | tooDeep
  /-- A list or a mapping has too many others around it. -/
  | tooDeepIn (mapping : Bool)
  deriving DecidableEq, Repr

inductive ReadFault where
  /-- The text does not follow its format. -/
  | malformed
  | obstacle (why : Obstacle)
  deriving DecidableEq, Repr

/-- What a part of a text is read as, or else that it is malformed. -/
def orMalformed {α : Type} : Option α → Except ReadFault α
  | some a => .ok a
  | none => .error .malformed

end Shorthand.Data
