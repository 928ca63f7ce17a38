import TypeGraph.Json.Decode
import TypeGraph.Report.Basic

/-!
# Diagnostics as JSON texts

Diagnostics can be read back from the texts that are written for them.
-/

namespace TypeGraph

open Json

/-- Severities. -/
def Severity.decoder : Decoder Severity :=
  Decoder.choice fun
    | "Error" => some .error
    | "Warning" => some .warning
    | _ => none

/-- Places. -/
def Location.decoder : Decoder Location := fun json => do
  let r ← Record.ofJson? ["file", "start", "end"] json
  return {
    file := ← r.required "file" Decoder.text
    start := ← r.required "start" Decoder.natural
    stop := ← r.required "end" Decoder.natural }

/-- Suggestions. -/
def Suggestion.decoder : Decoder Suggestion := fun json => do
  let r ← Record.ofJson? ["message", "replacement", "confidence"] json
  return {
    message := ← r.required "message" Decoder.text
    replacement := ← r.orNull "replacement" Decoder.text
    confidence := ← r.required "confidence" Decoder.double }

/-- Diagnostics. -/
def Diagnostic.decoder : Decoder Diagnostic := fun json => do
  let r ← Record.ofJson? ["code", "severity", "message", "location", "suggestions"] json
  return {
    code := ← r.required "code" Decoder.text
    severity := ← r.required "severity" Severity.decoder
    message := ← r.required "message" Decoder.text
    location := ← r.orNull "location" Location.decoder
    suggestions := ← r.required "suggestions" (Decoder.list Suggestion.decoder) }

/-- The diagnostic in a text. -/
def Diagnostic.ofText? (text : String) : Option Diagnostic :=
  (Json.parse? text).bind Diagnostic.decoder

end TypeGraph
