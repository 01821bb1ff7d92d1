import ChatSpace.Text.Blank
import ChatSpace.Text.Utf8

namespace ChatSpace

structure Settings where
  pager : Option String
deriving DecidableEq, Repr

namespace Settings

def defaultPager : String := "less"

/-- The pager named by the first variable that is set, unless paging is switched off. Blanks around
it do not count, and an empty name or `cat` stands for no pager. -/
def ofVariables (get? : String → Option String) : Settings :=
  if (get? "GIT_CHAT_NO_PAGER").isSome then ⟨none⟩
  else
    let pager := Blank.trim
      (((get? "GIT_CHAT_PAGER").orElse fun _ => get? "PAGER").getD defaultPager)
    if pager = "" ∨ pager = "cat" then ⟨none⟩ else ⟨some pager⟩

def ofBytes (get? : String → Option Bytes) : Settings :=
  ofVariables fun name => (get? name).bind fun value => (Utf8.decode value).toOption

end Settings

end ChatSpace
