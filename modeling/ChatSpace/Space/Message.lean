import ChatSpace.Space.Basic

namespace ChatSpace.Space

open Processes Session

variable {σ : Type}

def confirmation (head : ObjectId) (text : String) : String :=
  s!"[{head.short}] {Lines.first text}"

def message (space : Space) (text : String) : Act (Session σ) CommandError Unit := do
  let text := Blank.trim text
  if text = "" then Act.fail .emptyMessage
  space.runEngine ["commit", "--allow-empty", "--quiet", "-m", text]
  let head ← space.captureEngine ["rev-parse", "--verify", "HEAD"]
  match ObjectId.ofHex (Utf8.encode head) with
  | .ok head => sayLine (confirmation head text)
  | .error e => Act.fail (.objectId e)

end ChatSpace.Space
