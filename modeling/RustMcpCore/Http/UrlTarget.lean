import RustMcpCore.Library.UrlText

/-! # URLs below a base URL

A URL that is written by appending to a base URL names the server that the base URL names, as
long as what is appended begins with a slash.
-/
namespace RustMcpCore
open Library

/-- The URL leads to the server of the base URL. White space behind the base URL would become a part
of the server's name. -/
def LeadsTo (baseUrl url : String) : Prop :=
  ∀ root, UrlText.read some baseUrl.toList = some root →
    (∀ c ∈ baseUrl.toList.getLast?, UrlText.isTrimmed c = false) →
    ∃ target, UrlText.read some url.toList = some target ∧ target.scheme = root.scheme ∧
      target.authority = root.authority

/-- The slashes that the base URL ends in are written once. -/
theorem leadsTo_of_slash {baseUrl url : String} {rest : List Char}
    (h : url.toList = (Text.trimEndMatches baseUrl '/').toList ++ '/' :: rest) :
    LeadsTo baseUrl url := by
  intro root hroot hlast
  have hbase : baseUrl.toList = (Text.trimEndMatches baseUrl '/').toList ++
      baseUrl.toList.rtakeWhile (· = '/') := by
    rw [Text.trimEndMatches, String.toList_ofList, List.rdropWhile_append_rtakeWhile]
  rw [hbase] at hroot hlast
  rw [h]
  refine UrlText.exists_read_longer hroot (fun c hc => ?_) rfl hlast rest
  have hslash := List.mem_rtakeWhile_imp hc
  rw [of_decide_eq_true hslash]
  rfl

theorem leadsTo_append {baseUrl lead : String} (h : lead.toList.head? = some '/') (rest : String) :
    LeadsTo baseUrl (Text.trimEndMatches baseUrl '/' ++ lead ++ rest) := by
  obtain ⟨more, hlead⟩ := List.head?_eq_some_iff.mp h
  refine leadsTo_of_slash (?_ : _ = _ ++ '/' :: (more ++ rest.toList))
  rw [String.toList_append, String.toList_append, hlead, List.append_assoc, List.cons_append]

end RustMcpCore
