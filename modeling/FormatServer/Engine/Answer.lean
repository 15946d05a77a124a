import FormatServer.Engine.Language

/-!
# Answers of the engine
-/

set_option autoImplicit false

namespace FormatServer

/-- What the engine knows about a path: whether it is ignored, and the parser it would use. -/
structure FileInfo where
  ignored : Bool := false
  inferredParser : Option Json := none
  deriving Inhabited

namespace FileInfo

/-- The file information in the engine's answer. -/
def ofEngine (answer : Json) : Except Fault FileInfo :=
  if !answer.truthy then .ok {}
  else
    match answer with
    | .obj fields =>
      let fields : Fields := fields
      .ok {
        ignored := ((fields.get? "ignored").map Json.truthy).getD false
        inferredParser := (fields.get? "inferredParser").bind Json.ifTruthy }
    | v => .error (.answerNotAnObject v.kind)

/-- The file information as data. -/
def toJson (i : FileInfo) : Json :=
  .obj [("ignored", .bool i.ignored), ("inferredParser", Json.ofOption i.inferredParser)]

end FileInfo

/-- What looking for local configuration near a document came to. -/
inductive LocalConfig where
  /-- Options were found. -/
  | found (options : Fields)
  /-- Nothing was found, so the settings apply. -/
  | missing
  /-- Formatting is off for the document. -/
  | disabled
  /-- Loading the configuration failed. -/
  | errored (f : Failure)
  deriving Inhabited

namespace LocalConfig

/-- The word for an outcome. -/
def status : LocalConfig → String
  | found _ => "found"
  | missing => "missing"
  | disabled => "disabled"
  | errored _ => "errored"

/-- Formatting goes on. -/
def allowsFormatting : LocalConfig → Bool
  | found _ => true
  | missing => true
  | disabled => false
  | errored _ => false

end LocalConfig

end FormatServer
