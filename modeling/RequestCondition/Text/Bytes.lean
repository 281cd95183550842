/-!
# The bytes of a text

Offsets into a source count the bytes of its UTF-8 form, texts are ordered by those bytes, and
percent coding works on them.  The encoder of a single character is core's
`String.utf8EncodeChar`; here it is spread over lists, and read back.
-/

set_option autoImplicit false

namespace RequestCondition

/-- The number of bytes that a run of characters takes. -/
def utf8Length : List Char → Nat
  | [] => 0
  | c :: cs => c.utf8Size + utf8Length cs

@[simp] theorem utf8Length_nil : utf8Length [] = 0 := rfl

@[simp] theorem utf8Length_cons (c : Char) (cs : List Char) :
    utf8Length (c :: cs) = c.utf8Size + utf8Length cs := rfl

@[simp] theorem utf8Length_append (xs ys : List Char) :
    utf8Length (xs ++ ys) = utf8Length xs + utf8Length ys := by
  induction xs with
  | nil => simp
  | cons c cs ih => simp [ih, Nat.add_assoc]

theorem utf8ByteSize_ofList (cs : List Char) : (String.ofList cs).utf8ByteSize = utf8Length cs := by
  induction cs with
  | nil => rfl
  | cons c cs ih =>
    rw [String.ofList_cons, String.utf8ByteSize_append, ih, String.utf8ByteSize_singleton,
      utf8Length_cons]

/-- The UTF-8 form of a run of characters. -/
def utf8Bytes (cs : List Char) : List UInt8 := cs.flatMap String.utf8EncodeChar

@[simp] theorem utf8Bytes_nil : utf8Bytes [] = [] := rfl

@[simp] theorem utf8Bytes_cons (c : Char) (cs : List Char) :
    utf8Bytes (c :: cs) = String.utf8EncodeChar c ++ utf8Bytes cs := rfl

@[simp] theorem utf8Bytes_append (xs ys : List Char) :
    utf8Bytes (xs ++ ys) = utf8Bytes xs ++ utf8Bytes ys := by
  simp [utf8Bytes]

/-- The order of two texts: that of their bytes, a proper beginning first. -/
def compareBytes (s t : String) : Ordering :=
  compare (utf8Bytes s.toList) (utf8Bytes t.toList)

end RequestCondition
