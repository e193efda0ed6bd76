import HostScript.Library.Lists
import HostScript.Library.Numbers
import HostScript.Library.Texts

/-!
# Library — the types that every host can offer

The library `System` has numbers, texts, lists, conversions and printing.
-/

namespace HostScript.Library

/-- The type `System.Console`. -/
def consoleDraft : TypeDraft :=
  let write (ending : String) (args : List Value) : Effect := fun h =>
    (.value .null, h.print ((args.head?.map h.display).getD "" ++ ending))
  TypeDraft.named "System.Console"
    |>.method (.static "WriteLine" [.ofType .any] (write "\n"))
    |>.method (.static "WriteLine" [] fun _ => write "\n" [])
    |>.method (.static "Write" [.ofType .any] (write ""))

/-- The types of the library, in order. -/
def drafts : List TypeDraft :=
  [mathDraft, textDraft, builderDraft, listDraft, convertDraft, consoleDraft]

end HostScript.Library
