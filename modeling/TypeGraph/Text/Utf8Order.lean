/-!
# The order of texts by their bytes

Names are listed in the order of their UTF-8 encodings, compared byte by byte.
-/

namespace TypeGraph.Text

/-- The UTF-8 encoding of a text. -/
def utf8 (text : String) : List UInt8 :=
  text.toByteArray.data.toList

/-- Whether the encoding of the first text comes strictly before that of the second. -/
def utf8Lt (a b : String) : Bool :=
  decide (utf8 a < utf8 b)

end TypeGraph.Text
