import CodeAtlas.Source.Language
import CodeAtlas.Source.Python

set_option autoImplicit false

namespace CodeAtlas

inductive ScanIssue where
  | unsupportedLanguage
  | unreadable
  deriving DecidableEq, Repr

structure Scan where
  file : ParsedFile
  issue : Option ScanIssue := none
  deriving DecidableEq, Repr

namespace Scan

def of (path language : Text) (content : Option Text) : Scan :=
  match Language.family? (Language.normalize language path), content with
  | none, _ => ⟨{ path, language }, some .unsupportedLanguage⟩
  | some _, none => ⟨{ path, language }, some .unreadable⟩
  | some .ecmaScript, some content => ⟨Script.scan path language content, none⟩
  | some .python, some content => ⟨Python.scan path language content, none⟩

def ofFile (f : SourceFile) : Scan := of f.path f.language (some f.content)

theorem path_of (path language : Text) (content : Option Text) :
    (of path language content).file.path = path := by
  unfold of
  split <;> rfl

theorem language_of (path language : Text) (content : Option Text) :
    (of path language content).file.language = language := by
  unfold of
  split <;> rfl

end Scan

end CodeAtlas
