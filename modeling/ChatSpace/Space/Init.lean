import ChatSpace.Space.Basic

namespace ChatSpace.Space

open Processes Session

variable {σ : Type}

def filesDirectory : String := ".git-chat"

def configPath : String := ".git-chat/config"

def inside (space : Space) (relative : String) : Bytes :=
  Files.Path.join space.path (Utf8.encode relative)

def name (space : Space) : String :=
  (space.location.getLast?.map Utf8.lossy).getD "chat"

def config (space : Space) : String :=
  s!"[channel \"{space.name}\"]\n\tdescription = {space.name}\n"

def writeConfig (space : Space) : Act (Session σ) CommandError Unit := do
  changeFiles (fun t here => t.makeDirectories here (space.inside filesDirectory))
    (.makeFiles (Utf8.lossy (space.inside filesDirectory)))
  changeFiles
    (fun t here =>
      (t.write here (space.inside configPath) (Utf8.encode space.config)).mapError (·, t))
    (.writeConfig (Utf8.lossy (space.inside configPath)))

def init (space : Space) : Act (Session σ) CommandError Unit := do
  let s ← Act.current
  if s.files.present s.world.directory (space.inside configPath) then
    Act.fail (.alreadySpace space.shownPath)
  space.runEngine ["init", "--quiet"]
  space.writeConfig
  space.runEngine ["add", "--", configPath]
  space.runEngine ["commit", "--quiet", "-m", "Create chat space"]
  sayLine s!"Initialized chat space in {space.shownPath}"

end ChatSpace.Space
