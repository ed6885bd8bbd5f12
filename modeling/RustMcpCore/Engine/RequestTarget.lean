import RustMcpCore.Engine.HttpExecutor
import RustMcpCore.Engine.TemplateMeaning
import RustMcpCore.Library.UrlTemplates

/-! # What arguments can do to the target of a request

The path of an HTTP tool is written by its template and by the texts of its placeholders, and
becomes part of the URL as it is. The URL that the client reads is compared with the one the
template writes.
-/
namespace RustMcpCore
open Library Outbound

/-- A character of the template, or the text that a placeholder of it stands for. -/
inductive PathPiece
  | char (c : Char)
  | value (text : List Char)
  deriving DecidableEq

namespace PathPiece

def view : PathPiece → Option Char
  | char c => some c
  | value _ => none

def text : PathPiece → List Char
  | char c => [c]
  | value text => text

theorem spells : UrlText.Spells view text := by
  intro piece c h
  cases piece with
  | char d =>
    cases h
    rfl
  | value _ => cases h

theorem text_chars (chars : List Char) : (chars.map char).flatMap text = chars := by
  induction chars with
  | nil => rfl
  | cons c chars ih =>
    rw [List.map_cons, List.flatMap_cons, ih]
    rfl

end PathPiece

namespace Templating
variable (json : SerdeJson) (ctx : RenderContext)

/-- How a text with placeholders is written. -/
inductive TextWritten : List Char → List PathPiece → Prop
  | literal {text : List Char} (plain : ¬ ['$', '{'] <:+: text) :
      TextWritten text (text.map .char)
  | placeholder {before expr after : List Char} {pieces : List PathPiece} {rendered : Rendered}
      (plain : ¬ ['$', '{'] <:+: before) (closed : '}' ∉ expr)
      (evaluates : Evaluates json ctx expr rendered) (rest : TextWritten after pieces) :
      TextWritten (before ++ '$' :: '{' :: (expr ++ '}' :: after))
        (before.map .char ++ .value (textOf json rendered) :: pieces)

/-- A path that is a single placeholder is what that stands for. -/
inductive PathWritten (path : String) : List PathPiece → Prop
  | sole {expr : List Char} {value : String} (sole : Sole path.toList expr)
      (evaluates : Evaluates json ctx expr (.value (.string value))) :
      PathWritten path [.value value.toList]
  | text {pieces : List PathPiece} (mixed : ∀ expr, ¬ Sole path.toList expr)
      (written : TextWritten json ctx path.toList pieces) : PathWritten path pieces

variable {json ctx}

theorem textMeans_iff_written {text out : List Char} : TextMeans json ctx text out ↔
    ∃ pieces, TextWritten json ctx text pieces ∧ out = pieces.flatMap PathPiece.text := by
  constructor
  · intro h
    induction h with
    | literal hplain => exact ⟨_, .literal hplain, (PathPiece.text_chars _).symm⟩
    | placeholder hplain hclosed hevaluates _ ih =>
      obtain ⟨pieces, hwritten, rfl⟩ := ih
      refine ⟨_, .placeholder hplain hclosed hevaluates hwritten, ?_⟩
      rw [List.flatMap_append, PathPiece.text_chars, List.flatMap_cons, ← List.append_assoc]
      rfl
  · rintro ⟨pieces, h, rfl⟩
    induction h with
    | literal hplain =>
      rw [PathPiece.text_chars]
      exact .literal hplain
    | placeholder hplain hclosed hevaluates _ ih =>
      rw [List.flatMap_append, PathPiece.text_chars, List.flatMap_cons, ← List.append_assoc]
      exact .placeholder hplain hclosed hevaluates ih

/-- A path renders to the texts of its pieces. -/
theorem renderPath_iff {path out : String} :
    renderValue json (.string path) ctx = .ok (.string out) ↔
      ∃ pieces, PathWritten json ctx path pieces ∧ out.toList = pieces.flatMap PathPiece.text := by
  have hnull : ¬ (Means json ctx (.string path) .omitted ∧ Value.string out = .null) := by
    rintro ⟨-, h⟩
    cases h
  rw [renderValue_iff (.string path), or_iff_left hnull]
  constructor
  · intro h
    cases h with
    | sole hsole hevaluates => exact ⟨_, .sole hsole hevaluates, (List.append_nil _).symm⟩
    | text hmixed hmeans =>
      obtain ⟨pieces, hwritten, rfl⟩ := textMeans_iff_written.mp hmeans
      exact ⟨pieces, .text hmixed hwritten, String.toList_ofList⟩
  · rintro ⟨pieces, hwritten, hout⟩
    cases hwritten with
    | @sole expr value hsole hevaluates =>
      have hsame : out = value := String.toList_inj.mp (hout.trans (List.append_nil _))
      exact hsame ▸ .sole hsole hevaluates
    | text hmixed hwritten =>
      have hmeans := textMeans_iff_written.mpr ⟨pieces, hwritten, hout⟩
      have htext := Means.text hmixed hmeans
      rwa [String.ofList_toList] at htext

end Templating

/-! ## The template of the URL -/

/-- A path that begins with a placeholder may bring the slash that joins it to the base URL. -/
def absorbSlash : List PathPiece → List PathPiece
  | .value [] :: rest => .value [] :: absorbSlash rest
  | .value ('/' :: text) :: rest => .value text :: rest
  | pieces => pieces

def templateUrl (baseUrl : String) (pieces : List PathPiece) : List PathPiece :=
  (Text.trimEndMatches baseUrl '/').toList.map .char ++
    if pieces.head? = some (.char '/') then pieces else .char '/' :: absorbSlash pieces

/-- The segment that a path begins with is empty, and the slash after it joins the path to the
base URL. -/
def LosesSegment (pieces : List PathPiece) : Prop :=
  pieces.head? ≠ some (.char '/') ∧
    (pieces.dropWhile (· = .value [])).head? = some (.char '/')

instance (pieces : List PathPiece) : Decidable (LosesSegment pieces) :=
  inferInstanceAs (Decidable (_ ∧ _))

section Joined
variable {baseUrl : String} {pieces : List PathPiece}

theorem toList_joinUrl (path : String) : (joinUrl baseUrl path).toList =
    (Text.trimEndMatches baseUrl '/').toList ++
      if path.toList.head? = some '/' then path.toList else '/' :: path.toList := by
  have hslash : "/".toList = ['/'] := rfl
  have hstrip : (Text.stripPrefix path "/").isSome = true ↔ path.toList.head? = some '/' := by
    unfold Text.stripPrefix
    rw [hslash]
    cases path.toList with
    | nil => exact iff_of_false (fun h => by cases h) (fun h => by cases h)
    | cons c text =>
      by_cases hc : c = '/'
      · subst hc
        exact iff_of_true (by simp) rfl
      · exact iff_of_false (by simp [Ne.symm hc]) fun h => hc (Option.some.inj h)
  unfold joinUrl
  rw [String.toList_append]
  by_cases h : path.toList.head? = some '/'
  · rw [if_pos (hstrip.mpr h), if_pos h]
  · rw [if_neg (mt hstrip.mp h), if_neg h, String.toList_append, hslash]
    rfl

/-- The texts of the pieces begin with a slash exactly where it is absorbed, or belongs to the
template. -/
theorem absorbSlash_text (hlost : ¬ LosesSegment pieces)
    (hslash : pieces.head? ≠ some (.char '/')) :
    '/' :: (absorbSlash pieces).flatMap PathPiece.text =
      if (pieces.flatMap PathPiece.text).head? = some '/' then pieces.flatMap PathPiece.text
      else '/' :: pieces.flatMap PathPiece.text := by
  induction pieces with
  | nil => rfl
  | cons piece rest ih =>
    cases piece with
    | char c =>
      have hc : c ≠ '/' := fun h => hslash (h ▸ rfl)
      exact (if_neg fun h => hc (Option.some.inj h)).symm
    | value text =>
      cases text with
      | nil =>
        refine ih (fun h => hlost ⟨hslash, ?_⟩) fun h => hlost ⟨hslash, ?_⟩
        · exact h.2
        · obtain ⟨after, rfl⟩ := List.head?_eq_some_iff.mp h
          rfl
      | cons c text =>
        by_cases hc : c = '/'
        · subst hc
          exact (if_pos rfl).symm
        · have habsorb : absorbSlash (.value (c :: text) :: rest) = .value (c :: text) :: rest := by
            unfold absorbSlash
            split
            · rename_i h
              cases h
            · rename_i h
              cases h
              exact absurd rfl hc
            · rfl
          rw [habsorb]
          exact (if_neg fun h => hc (Option.some.inj h)).symm

theorem templateUrl_text {path : String} (hpath : path.toList = pieces.flatMap PathPiece.text)
    (hlost : ¬ LosesSegment pieces) :
    (joinUrl baseUrl path).toList = (templateUrl baseUrl pieces).flatMap PathPiece.text := by
  rw [toList_joinUrl, templateUrl, List.flatMap_append, PathPiece.text_chars, hpath]
  congr 1
  by_cases hslash : pieces.head? = some (.char '/')
  · obtain ⟨rest, rfl⟩ := List.head?_eq_some_iff.mp hslash
    rw [if_pos hslash]
    exact if_pos rfl
  · rw [if_neg hslash]
    exact (absorbSlash_text hlost hslash).symm

theorem absorbSlash_empty (n : ℕ) (rest : List PathPiece) :
    absorbSlash (List.replicate n (.value []) ++ .char '/' :: rest) =
      List.replicate n (.value []) ++ .char '/' :: rest := by
  induction n with
  | zero => rfl
  | succ n ih => exact congrArg (PathPiece.value [] :: ·) ih

theorem text_empty (n : ℕ) (rest : List PathPiece) :
    (List.replicate n (PathPiece.value []) ++ rest).flatMap PathPiece.text = rest.flatMap PathPiece.text := by
  induction n with
  | zero => rfl
  | succ n ih => exact ih

/-- Only empty texts stand before the slash that joins the path. -/
theorem LosesSegment.split (h : LosesSegment pieces) :
    ∃ n rest, pieces = List.replicate (n + 1) (.value []) ++ .char '/' :: rest := by
  obtain ⟨hfirst, hslash⟩ := h
  obtain ⟨rest, hrest⟩ := List.head?_eq_some_iff.mp hslash
  have hempty : ∀ piece ∈ pieces.takeWhile (· = .value []), piece = .value [] := fun piece hpiece =>
    of_decide_eq_true (List.all_eq_true.mp List.all_takeWhile piece hpiece)
  have hpieces : pieces = pieces.takeWhile (· = .value []) ++ .char '/' :: rest := by
    rw [← hrest, List.takeWhile_append_dropWhile]
  rw [List.eq_replicate_of_mem hempty] at hpieces
  generalize (pieces.takeWhile (· = .value [])).length = n at hpieces
  cases n with
  | zero => exact absurd (hpieces ▸ rfl) hfirst
  | succ n => exact ⟨n, rest, hpieces⟩

end Joined

section Target
variable {json : SerdeJson} {baseUrl : String} {template : HttpRequestTemplate} {args : Value}
  {request : OutboundHttpRequest}

theorem prepareRequest_url (h : prepareRequest json baseUrl template args = .ok request) :
    ∃ path, Templating.renderValue json (.string template.path) ⟨args, none⟩ = .ok (.string path) ∧
      request.url = joinUrl baseUrl path := by
  unfold prepareRequest at h
  obtain ⟨rendered, hrendered, h⟩ := bind_eq_ok h
  obtain ⟨path, hpath, h⟩ := bind_eq_ok h
  obtain ⟨_, -, h⟩ := bind_eq_ok h
  obtain ⟨_, -, h⟩ := bind_eq_ok h
  obtain ⟨_, -, h⟩ := bind_eq_ok h
  cases h
  refine ⟨path, ?_, rfl⟩
  have hrendered := mapError_eq_ok.mp hrendered
  cases rendered with
  | string value =>
    cases hpath
    exact hrendered
  | _ => cases hpath

/-- The URL of a request, by how its path is written. -/
theorem prepareRequest_written (h : prepareRequest json baseUrl template args = .ok request) :
    (∃ pieces, Templating.PathWritten json ⟨args, none⟩ template.path pieces) ∧
      ∀ pieces, Templating.PathWritten json ⟨args, none⟩ template.path pieces →
        request.url = joinUrl baseUrl (.ofList (pieces.flatMap PathPiece.text)) := by
  obtain ⟨path, hrender, hurl⟩ := prepareRequest_url h
  obtain ⟨found, hfound, -⟩ := Templating.renderPath_iff.mp hrender
  refine ⟨⟨found, hfound⟩, fun pieces hpieces => ?_⟩
  have hsame := Templating.renderPath_iff.mpr ⟨pieces, hpieces, String.toList_ofList⟩
  cases hrender.symm.trans hsame
  exact hurl

/-- Without separators, and without a lost segment, the URL has the parts of its template. -/
theorem kept_iff {pieces : List PathPiece} {shape : UrlText.Target PathPiece}
    (hread : UrlText.read PathPiece.view (templateUrl baseUrl pieces) = some shape)
    (hfixed : shape.Fixed PathPiece.view) :
    shape.KeptBy PathPiece.view PathPiece.text
        (joinUrl baseUrl (.ofList (pieces.flatMap PathPiece.text))).toList ↔
      UrlText.Unseparated PathPiece.view PathPiece.text (templateUrl baseUrl pieces) ∧
        ¬ LosesSegment pieces ∧ shape.Undotted PathPiece.view PathPiece.text := by
  by_cases hlost : LosesSegment pieces
  · refine iff_of_false (fun hkept => ?_) fun h => h.2.1 hlost
    obtain ⟨n, rest, rfl⟩ := hlost.split
    have htexts := UrlText.unseparated_of_read hread hfixed hkept.parts
    have hempty : ∀ piece ∈ List.replicate (n + 1) (PathPiece.value []), piece.view = none :=
      fun piece hpiece => by
        rw [List.eq_of_mem_replicate hpiece]
        rfl
    have htemplate : templateUrl baseUrl (List.replicate (n + 1) (.value []) ++ .char '/' :: rest) =
        (Text.trimEndMatches baseUrl '/').toList.map .char ++
          .char '/' :: (List.replicate (n + 1) (.value []) ++ .char '/' :: rest) := by
      rw [templateUrl, if_neg hlost.1, absorbSlash_empty]
    rw [htemplate] at hread htexts
    obtain ⟨shorter, hshorter, hfixed', hlength⟩ := UrlText.exists_shorter hread hfixed rfl rfl hempty
      (List.cons_ne_nil _ _)
    have hshort : (joinUrl baseUrl (.ofList ((List.replicate (n + 1) (PathPiece.value []) ++
        .char '/' :: rest).flatMap PathPiece.text))).toList =
        ((Text.trimEndMatches baseUrl '/').toList.map PathPiece.char ++ .char '/' :: rest).flatMap
          PathPiece.text := by
      rw [toList_joinUrl, String.toList_ofList, text_empty, List.flatMap_append, PathPiece.text_chars]
      rfl
    have hunseparated : UrlText.Unseparated PathPiece.view PathPiece.text
        ((Text.trimEndMatches baseUrl '/').toList.map .char ++ .char '/' :: rest) := by
      obtain ⟨hbase, hpath⟩ := List.forall_mem_append.mp htexts
      have hrest := (List.forall_mem_append.mp (List.forall_mem_cons.mp hpath).2).2
      exact List.forall_mem_append.mpr ⟨hbase, hrest⟩
    have hfound := UrlText.read_filled PathPiece.spells hshorter hfixed' hunseparated
    rw [← hshort, hkept.parts] at hfound
    have hlengths := congrArg (fun target => target.written.length) (Option.some.inj hfound)
    simp only [UrlText.Target.length_filled] at hlengths
    omega
  · rw [templateUrl_text String.toList_ofList hlost, UrlText.keptBy_iff PathPiece.spells hread hfixed]
    exact and_congr_right fun _ => (and_iff_right hlost).symm

/-- A request keeps the target of its template exactly if the texts bring no separators, no
segment is lost at the joint, and no dots take segments away. -/
theorem requestTarget_kept_iff
    (h : prepareRequest json baseUrl template args = .ok request) :
    (∃ pieces, Templating.PathWritten json ⟨args, none⟩ template.path pieces) ∧
      ∀ pieces shape, Templating.PathWritten json ⟨args, none⟩ template.path pieces →
        UrlText.read PathPiece.view (templateUrl baseUrl pieces) = some shape →
        shape.Fixed PathPiece.view →
        (shape.KeptBy PathPiece.view PathPiece.text request.url.toList ↔
          UrlText.Unseparated PathPiece.view PathPiece.text (templateUrl baseUrl pieces) ∧
            ¬ LosesSegment pieces ∧ shape.Undotted PathPiece.view PathPiece.text) := by
  obtain ⟨hexists, hurl⟩ := prepareRequest_written h
  refine ⟨hexists, fun pieces shape hwritten hread hfixed => ?_⟩
  rw [hurl pieces hwritten]
  exact kept_iff hread hfixed

/-- The same where the template has no dots of its own. -/
theorem requestTarget_kept_iff_of_plain {pieces : List PathPiece} {shape : UrlText.Target PathPiece}
    (h : prepareRequest json baseUrl template args = .ok request)
    (hwritten : Templating.PathWritten json ⟨args, none⟩ template.path pieces)
    (hread : UrlText.read PathPiece.view (templateUrl baseUrl pieces) = some shape)
    (hfixed : shape.Fixed PathPiece.view)
    (hplain : ∀ segment ∈ shape.written, UrlText.dotsOf PathPiece.view segment = .none) :
    shape.KeptBy PathPiece.view PathPiece.text request.url.toList ↔
      UrlText.Unseparated PathPiece.view PathPiece.text (templateUrl baseUrl pieces) ∧
        ¬ LosesSegment pieces ∧
          (∀ dots ∈ ((shape.filled PathPiece.text).written.map (UrlText.dotsOf some)).dropLast,
            dots = .none) ∧
          (((shape.filled PathPiece.text).written.map (UrlText.dotsOf some)).getLast? = some .double →
            shape.written.length = 1) := by
  rw [(prepareRequest_written h).2 pieces hwritten, kept_iff hread hfixed,
    UrlText.Target.undotted_iff hplain]

end Target

/-! ## A tool with a placeholder -/

def usersTemplate : HttpRequestTemplate where
  method := "GET"
  path := "/users/${id}/posts"
  query := none
  headers := none
  body := none
  timeoutMs := none
  maxResponseBytes := none

def usersPieces (id : String) : List PathPiece :=
  "/users/".toList.map .char ++ .value id.toList :: "/posts".toList.map .char

theorem usersPieces_written {json : SerdeJson} (id : String) :
    Templating.PathWritten json ⟨.object [("id", .string id)], none⟩ usersTemplate.path
      (usersPieces id) := by
  have hmixed : ∀ expr, ¬ Templating.Sole usersTemplate.path.toList expr := fun expr hsole =>
    Option.some_ne_none _ ((Templating.sole_iff.mpr hsole).symm.trans rfl)
  refine .text hmixed ?_
  refine @Templating.TextWritten.placeholder _ _ "/users/".toList "id".toList "/posts".toList _
    (.value (.string id)) (by decide) (by decide) ?_ (.literal (by decide))
  exact @Templating.Evaluates.value _ _ _ "id" false [] _ rfl rfl fun h => by cases h

def usersShape (id : String) : UrlText.Target PathPiece where
  scheme := "https".toList
  authority := "api.example.org".toList.map .char
  written := ["v1".toList.map .char, "users".toList.map .char, [.value id.toList],
    "posts".toList.map .char]
  query := none
  fragment := none

theorem usersShape_read (id : String) : UrlText.read PathPiece.view
    (templateUrl "https://api.example.org/v1" (usersPieces id)) = some (usersShape id) := rfl

theorem usersShape_fixed (id : String) : (usersShape id).Fixed PathPiece.view := by
  refine ⟨fun a ha => ?_, fun _ h => ?_, fun _ h => ?_⟩
  · obtain ⟨c, -, rfl⟩ := List.mem_map.mp ha
    rfl
  · cases h
  · cases h

/-- An ordinary identifier stays in its segment. -/
theorem requestTarget_kept_users :
    ∃ request, prepareRequest ⟨fun _ => .error "expected value", fun _ => "null"⟩
        "https://api.example.org/v1" usersTemplate (.object [("id", .string "42")]) = .ok request ∧
      (usersShape "42").KeptBy PathPiece.view PathPiece.text request.url.toList := by
  refine ⟨_, rfl, ?_⟩
  refine ((requestTarget_kept_iff rfl).2 (usersPieces "42") (usersShape "42")
    (usersPieces_written "42") (usersShape_read "42") (usersShape_fixed "42")).mpr ⟨?_, ?_, ?_⟩
  · exact UrlText.unseparated_of_all rfl
  · exact fun hlost => hlost.1 rfl
  · exact rfl

/-- An identifier with dots and a slash leads to another path of the upstream. -/
theorem dots_leave_users :
    ∃ request target, prepareRequest ⟨fun _ => .error "expected value", fun _ => "null"⟩
        "https://api.example.org/v1" usersTemplate (.object [("id", .string "../admin")]) =
          .ok request ∧
      UrlText.read some request.url.toList = some target ∧
      target.path some = ["v1".toList, "admin".toList, "posts".toList] ∧
      ¬ ∀ pieces shape, Templating.PathWritten ⟨fun _ => .error "expected value", fun _ => "null"⟩
          ⟨.object [("id", .string "../admin")], none⟩ usersTemplate.path pieces →
        UrlText.read PathPiece.view (templateUrl "https://api.example.org/v1" pieces) = some shape →
        shape.Fixed PathPiece.view → shape.KeptBy PathPiece.view PathPiece.text request.url.toList := by
  refine ⟨_, _, rfl, rfl, rfl, fun h => ?_⟩
  have hkept := h _ _ (usersPieces_written "../admin") (usersShape_read "../admin")
    (usersShape_fixed "../admin")
  have hplain := UrlText.unseparated_of_read (usersShape_read "../admin")
    (usersShape_fixed "../admin") hkept.parts
  have hslash := hplain (.value "../admin".toList) (by decide) rfl '/' (by decide)
  cases hslash

end RustMcpCore
