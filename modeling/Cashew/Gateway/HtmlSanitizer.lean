import Cashew.Gateway.Http
import Cashew.Lib.TextSearch

/-!
# Sanitizing HTML

`ContentRenderer::sanitize_html` of `gateway/content_renderer.cpp`: thirty-nine loops, one
after the other, that search the text for a pattern and edit it in place. Each is a `Pass`
whose edit is what the body of the loop does at the place found.
-/

namespace Cashew.HtmlSanitizer

open Cashew Cashew.Lib

/-- `std::isalnum` in the C locale. -/
def isAlnum (c : UInt8) : Bool :=
  (48 ≤ c && c ≤ 57) || (65 ≤ c && c ≤ 90) || (97 ≤ c && c ≤ 122)

/-- The character in front of a position, if any, has the property. -/
def behind (text : Bytes) (pos : Nat) (is : UInt8 → Bool) : Bool :=
  0 < pos && text[pos - 1]?.any is

/-- 1. `<script` up to `</script>`, or to the end. One right behind a letter or digit is
passed over. -/
def scripts : Pass UInt8 where
  pattern := lit "<script"
  edit text pos :=
    if !behind text pos isAlnum then
      match findFrom (lit "</script>") text pos with
      | some close => .erase (close - pos + 9)
      | none => .cut
    else .skip

/-- 2. `<iframe` up to `</iframe>`, or to the next `>`. Without either the loop goes on where
it is. -/
def iframes : Pass UInt8 where
  pattern := lit "<iframe"
  edit text pos :=
    match findFrom (lit "</iframe>") text pos with
    | some close => .erase (close - pos + 9)
    | none =>
      match findFrom (lit ">") text pos with
      | some bracket => .erase (bracket - pos + 1)
      | none => .stay

/-- 3. A tag up to the next `>`. -/
def dangerousTag (tag : String) : Pass UInt8 where
  pattern := lit tag
  edit text pos :=
    match findFrom (lit ">") text pos with
    | some bracket => .erase (bracket - pos + 1)
    | none => .skip

/-- 4. An event handler with its quoted value. -/
def eventAttr (attr : String) : Pass UInt8 where
  pattern := lit attr
  edit text pos :=
    if 0 < pos && !behind text pos isSpace && !behind text pos (· == 60) then .skip
    else
      match findFrom (lit "=") text pos with
      | none => .skip
      | some eq =>
        if eq - pos < 20 then
          match findFirstOf (lit "\"'") text eq with
          | none => .skip
          | some quoteStart =>
            match findFrom (text[quoteStart]?.toList) text (quoteStart + 1) with
            | none => .skip
            | some quoteEnd => .erase (quoteEnd - pos + 1)
        else .skip

/-- The quoted value around a position, emptied. -/
def emptyQuotes (text : Bytes) (pos advance : Nat) : Option (TextEdit UInt8) :=
  match rfindChar 34 text pos, findFrom (lit "\"") text pos with
  | some attrStart, some attrEnd =>
    some (.replace attrStart (attrEnd - attrStart + 1) (lit "\"\"") advance)
  | _, _ => none

/-- 5. Quoted `javascript:` URLs. -/
def javascriptUrls : Pass UInt8 where
  pattern := lit "javascript:"
  edit text pos := (emptyQuotes text pos 0).getD .skip

/-- 6. Quoted `data:` URLs, except near the beginning of an image tag. -/
def dataUrls : Pass UInt8 where
  pattern := lit "data:"
  edit text pos :=
    let checkStart := if 20 < pos then pos - 20 else 0
    let context := (text.drop checkStart).take (pos - checkStart + 10)
    if (findFrom (lit "<img") context 0).isNone && (findFrom (lit "src=") context 0).isNone then
      (emptyQuotes text pos 1).getD .skip
    else .skip

/-- 7. Style attributes with dangerous contents. -/
def styles : Pass UInt8 where
  pattern := lit "style="
  edit text pos :=
    match findFirstOf (lit "\"'") text (pos + 6) with
    | none => .skip
    | some quoteStart =>
      match findFrom (text[quoteStart]?.toList) text (quoteStart + 1) with
      | none => .skip
      | some quoteEnd =>
        let styleContent := (text.drop (quoteStart + 1)).take (quoteEnd - quoteStart - 1)
        if (findFrom (lit "expression") styleContent 0).isSome ||
            (findFrom (lit "behavior") styleContent 0).isSome ||
            (findFrom (lit "javascript:") styleContent 0).isSome ||
            (findFrom (lit "@import") styleContent 0).isSome then
          .erase (quoteEnd - pos + 1)
        else .skip

/-- 8. A sandbox for the iframes that are left. -/
def sandbox : Pass UInt8 where
  pattern := lit "<iframe"
  edit text pos :=
    match findFrom (lit ">") text pos with
    | none => .skip
    | some close =>
      if (findFrom (lit "sandbox") ((text.drop pos).take (close - pos)) 0).isNone then
        .replace close 0 (lit " sandbox=\"\"") 1
      else .skip

/-- `dangerous_tags`. -/
def dangerousTags : List String := ["<object", "<embed", "<applet"]

/-- `event_attrs`. -/
def eventAttrs : List String :=
  ["onclick", "ondblclick", "onmousedown", "onmouseup", "onmouseover", "onmouseout",
    "onmousemove", "onmouseenter", "onmouseleave", "onkeydown", "onkeyup", "onkeypress",
    "onload", "onunload", "onerror", "onabort", "onblur", "onchange", "onfocus",
    "onreset", "onselect", "onsubmit", "onscroll", "onresize", "ondrag", "ondrop",
    "oncontextmenu", "oninput", "oninvalid", "onsearch"]

def passes : List (Pass UInt8) :=
  [scripts, iframes] ++ dangerousTags.map dangerousTag ++ eventAttrs.map eventAttr ++
    [javascriptUrls, dataUrls, styles, sandbox]

/-- `ContentRenderer::sanitize_html`, each loop for at most `fuel` rounds: nothing if one of
them does not come to an end by then. -/
def sanitizeHtml (fuel : Nat) (html : Bytes) : Option Bytes := Pass.runAll passes fuel html

end Cashew.HtmlSanitizer
