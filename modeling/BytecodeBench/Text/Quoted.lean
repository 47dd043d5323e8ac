import BytecodeBench.Text.Basic
import BytecodeBench.Text.Printable

/-!
Quoted literals. The quote is the apostrophe, or the double quote for a text that has an apostrophe
and no double quote; the backslash, the quote in use and everything unprintable are escaped.
-/

namespace BytecodeBench.Text

/-- The quote under which a text is written. -/
def quoteFor (s : String) : Char :=
  if s.toList.contains '\'' && !s.toList.contains '"' then '"' else '\''

/-- How a character stands in a literal under the given quote. -/
def escapeChar (quote c : Char) : String :=
  if c = quote || c = '\\' then String.ofList ['\\', c]
  else if c = '\n' then "\\n"
  else if c = '\r' then "\\r"
  else if c = '\t' then "\\t"
  else if isPrintable c then c.toString
  else if c.toNat < 0x100 then "\\x" ++ hex 2 c.toNat
  else if c.toNat < 0x10000 then "\\u" ++ hex 4 c.toNat
  else "\\U" ++ hex 8 c.toNat

/-- The literal that denotes a text. -/
def quoted (s : String) : String :=
  let quote := quoteFor s
  quote.toString ++ String.join (s.toList.map (escapeChar quote)) ++ quote.toString

end BytecodeBench.Text
