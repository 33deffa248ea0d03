/-
AppShell/Proofs/View/NotificationBar.lean

What the bar of notifications is when its text is read.

The text of the bar is read as markup (`nodes?`), and what is found in it is
compared with the messages: one element for each message, in their order, with
the parts that the message has, and in each part the string of the message as
the only text (`ShowsMessage`).  There is no condition on the strings; that a string
could be taken for a tag is excluded by what `nodes?_writeAll` says of any text.

The tags do not depend on the strings either.  Of two lists of messages that have
the same parts (`MessageDefinition.outline`) the texts have the same tags in the
same order, with text in the same places.

The main statement is `notificationBar_read`.
-/
import Mathlib.Data.List.Forall2
import AppShell.Proofs.Markup.Reading
import AppShell.View.NotificationBar

namespace AppShell

open AppShell.Markup AppShell.Text AppShell.View

/-! ### Parts of a message -/

/-- Which parts a content has. -/
inductive ContentOutline where
  | text
  | api (fields : Nat) (payload : Bool)
  | code
deriving DecidableEq

/-- Which parts a message has, whatever their strings are. -/
structure MessageOutline where
  kind : MessageKind
  header : Bool
  content : ContentOutline
  dismissible : Bool
  loading : Bool
deriving DecidableEq

namespace MessageContent

/-- The parts of a content. -/
def outline : MessageContent → ContentOutline
  | .text _ => .text
  | .error ⟨_, .api fields payload⟩ => .api fields.length payload.isSome
  | .error ⟨_, .code _⟩ => .code

/-- The text of a content, or the summary of its report. -/
def lead : MessageContent → String
  | .text content => content
  | .error report => report.summary

/-- The fields of the report. -/
def fields : MessageContent → List (String × String)
  | .error ⟨_, .api fields _⟩ => fields
  | _ => []

/-- The payload or the code of the report. -/
def code? : MessageContent → Option String
  | .text _ => none
  | .error ⟨_, .api _ payload⟩ => payload
  | .error ⟨_, .code s⟩ => some s

end MessageContent

/-- The parts of a message. -/
def MessageDefinition.outline (m : MessageDefinition) : MessageOutline :=
  ⟨m.kind, m.header.isSome, m.content.outline, m.dismissible, m.loading⟩

/-! ### What is looked for in the bar -/

/-- Elements that have a class, which is one of the words of an attribute. -/
def hasClass (styleClass : String) : Query := fun _ attributes =>
  (attributes.lookup "class").any fun value => (value.toList.splitOn ' ').contains styleClass.toList

/-- Elements that have one of some names. -/
def isNamed (names : List String) : Query := fun name _ => names.contains name

/-- An element with a class and a string as its text. -/
def labelled (name styleClass s : String) : Node :=
  .element name [("class", styleClass)] [.text (shownText s)]

/-- The class of a message that depends on its kind. -/
def kindClass : MessageKind → String
  | .success => "notification--success"
  | .error => "notification--error"
  | .warning => "notification--warning"
  | .info => "notification--info"
  | .inProgress => "notification--in-progress"

/-- An element is that of a message. -/
structure ShowsMessage (m : MessageDefinition) (n : Node) : Prop where
  root : ∃ children, n = .element "div" [("class", "notification " ++ kindClass m.kind)] children
  spinner : n.select (hasClass "notification__spinner") = if m.loading then
    [.element "span" [("aria-hidden", "true"), ("class", "notification__spinner")] []] else []
  header : n.select (hasClass "notification__header") =
    m.header.toList.map (labelled "div" "notification__header")
  lead : n.select (hasClass "notification__text") =
    [labelled "span" "notification__text" m.content.lead]
  fields : n.select (isNamed ["dt", "dd"]) = m.content.fields.flatMap fun field =>
    [.element "dt" [] [.text (shownText field.1)], .element "dd" [] [.text (shownText field.2)]]
  code : n.select (hasClass "notification__code") =
    m.content.code?.toList.map (labelled "pre" "notification__code")
  dismiss : n.select (isNamed ["button"]) = if m.dismissible then
    [.element "button" [("class", "notification__dismiss"), ("title", "Dismiss")] [.text "✕"]]
    else []

/-! ### The markup is tidy -/

/-- A node with a class is tidy when its name, its class and its children are. -/
theorem tidy_classed {name styleClass : String} {children : List Node}
    (hname : IsName name ∧ name ∉ voidNames)
    (hclass : TidyAttributes [("class", styleClass)]) (h : TidyAll false children) :
    (Node.classed name styleClass children).Tidy :=
  ⟨hname, hclass, h⟩

theorem tidyAll_text (s : String) : TidyAll false [.text s] := ⟨trivial, rfl, trivial⟩

theorem tidy_codeBlock (s : String) : (codeBlock s).Tidy ∧ (codeBlock s).isText = false :=
  ⟨tidy_classed (by decide) (by decide) (tidyAll_text s), rfl⟩

/-- A field is a term and its description, both tidy. -/
theorem tidy_of_mem_fieldNodes {field : String × String} {n : Node} (h : n ∈ fieldNodes field) :
    n.Tidy ∧ n.isText = false := by
  rcases List.mem_pair.1 h with rfl | rfl
  · exact ⟨⟨by decide, by decide, tidyAll_text _⟩, rfl⟩
  · exact ⟨⟨by decide, by decide, tidyAll_text _⟩, rfl⟩

/-- The nodes of a report's details are tidy, whichever level of detail it shows. -/
theorem tidy_of_mem_detailNodes {details : ReportDetails} {n : Node} (h : n ∈ detailNodes details) :
    n.Tidy ∧ n.isText = false := by
  cases details with
  | api fields payload =>
    rcases List.mem_cons.1 h with rfl | h
    · refine ⟨tidy_classed (by decide) (by decide)
        (tidyAll_of_elements (fun n hn => ?_) false), rfl⟩
      obtain ⟨field, -, hn⟩ := List.mem_flatMap.1 hn
      exact tidy_of_mem_fieldNodes hn
    · obtain ⟨s, -, rfl⟩ := List.mem_map.1 h
      exact tidy_codeBlock s
  | code s =>
    obtain rfl := List.mem_singleton.1 h
    exact tidy_codeBlock s

/-- The nodes of a message's content are tidy, for a text and for a report. -/
theorem tidy_of_mem_contentNodes {content : MessageContent} {n : Node}
    (h : n ∈ contentNodes content) : n.Tidy ∧ n.isText = false := by
  cases content with
  | text s =>
    obtain rfl := List.mem_singleton.1 h
    exact ⟨tidy_classed (by decide) (by decide) (tidyAll_text s), rfl⟩
  | error report =>
    rcases List.mem_pair.1 h with rfl | rfl
    · exact ⟨tidy_classed (by decide) (by decide) (tidyAll_text _), rfl⟩
    · refine ⟨tidy_classed (by decide) (by decide)
        (tidyAll_of_elements (fun n hn => ?_) false), rfl⟩
      rcases List.mem_cons.1 hn with rfl | hn
      · exact ⟨⟨by decide, by decide, tidyAll_text _⟩, rfl⟩
      · exact tidy_of_mem_detailNodes hn

/-- The node of a message is tidy, with or without its button. -/
theorem tidy_messageNode (m : MessageDefinition) :
    (messageNode m).Tidy ∧ (messageNode m).isText = false := by
  have hclass : TidyAttributes [("class", messageClass m.kind)] := by
    cases m.kind <;> decide
  refine ⟨tidy_classed (by decide) hclass (tidyAll_of_elements (fun n hn => ?_) false), rfl⟩
  rcases List.mem_append.1 hn with hn | hn
  · split at hn
    · obtain rfl := List.mem_singleton.1 hn
      exact ⟨⟨by decide, by decide, trivial⟩, rfl⟩
    · cases hn
  rcases List.mem_cons.1 hn with rfl | hn
  · refine ⟨tidy_classed (by decide) (by decide) (tidyAll_of_elements (fun n hn => ?_) false), rfl⟩
    rcases List.mem_append.1 hn with hn | hn
    · obtain ⟨header, -, rfl⟩ := List.mem_map.1 hn
      exact ⟨tidy_classed (by decide) (by decide) (tidyAll_text header), rfl⟩
    · exact tidy_of_mem_contentNodes hn
  · split at hn
    · obtain rfl := List.mem_singleton.1 hn
      exact ⟨⟨by decide, by decide, tidyAll_text _⟩, rfl⟩
    · cases hn

/-- The whole bar is tidy, so that its printed text reads back as it was built. -/
theorem tidyAll_notificationBar (ms : List MessageDefinition) :
    TidyAll false [notificationBar ms] := by
  refine tidyAll_of_elements (fun n hn => ?_) false
  obtain rfl := List.mem_singleton.1 hn
  refine ⟨⟨by decide, by decide, tidyAll_of_elements (fun n hn => ?_) false⟩, rfl⟩
  obtain ⟨m, -, rfl⟩ := List.mem_map.1 hn
  exact tidy_messageNode m

/-! ### What is found in a message -/

/-- Which of the parts of a message are looked for. -/
structure Wanted where
  root : Bool
  spinner : Bool
  header : Bool
  lead : Bool
  fields : Bool
  code : Bool
  dismiss : Bool

/-- No part is looked for. -/
def Wanted.nothing : Wanted := ⟨false, false, false, false, false, false, false⟩

/-- A query looks for some of the parts, and for none of the elements that only hold others. -/
structure Wants (q : Query) (w : Wanted) : Prop where
  content : q "div" [("class", "notification__content")] = false
  details : q "details" [("class", "notification__details")] = false
  summary : q "summary" [] = false
  list : q "dl" [("class", "notification__fields")] = false
  root : ∀ kind, q "div" [("class", messageClass kind)] = w.root
  spinner : q "span" [("aria-hidden", "true"), ("class", "notification__spinner")] = w.spinner
  header : q "div" [("class", "notification__header")] = w.header
  lead : q "span" [("class", "notification__text")] = w.lead
  term : q "dt" [] = w.fields
  description : q "dd" [] = w.fields
  code : q "pre" [("class", "notification__code")] = w.code
  dismiss : q "button" [("class", "notification__dismiss"), ("title", "Dismiss")] = w.dismiss

/-- Some pieces if they are looked for. -/
def found (wanted : Bool) (ns : List Node) : List Node :=
  if wanted then ns else []

@[simp] theorem found_true (ns : List Node) : found true ns = ns := rfl

@[simp] theorem found_false (ns : List Node) : found false ns = [] := rfl

@[simp] theorem found_nil (wanted : Bool) : found wanted [] = [] := ite_self []

theorem found_append (wanted : Bool) (ns ns' : List Node) :
    found wanted (ns ++ ns') = found wanted ns ++ found wanted ns' := by
  cases wanted <;> rfl

section Select

variable {q : Query} {w : Wanted}

theorem select_singleton (q : Query) (n : Node) : selectAll q [n] = n.select q := by
  rw [selectAll, selectAll, List.append_nil]

/-- An element with a text only. -/
theorem select_leaf (q : Query) (name : String) (attributes : List (String × String)) (s : String) :
    (Node.element name attributes [.text s]).select q =
      found (q name attributes) [.element name attributes [.text s]] := by
  rw [Node.select, select_singleton, Node.select, List.append_nil]
  rfl

/-- An element that only holds others. -/
theorem select_group {name styleClass : String} (h : q name [("class", styleClass)] = false)
    (children : List Node) :
    (Node.classed name styleClass children).select q = selectAll q children := by
  rw [Node.classed, Node.select, h]
  rfl

/-- Of leaves with one class all are found or none. -/
theorem select_leaves (q : Query) (name styleClass : String) (texts : List String) :
    selectAll q (texts.map fun s => .classed name styleClass [.text s]) =
      found (q name [("class", styleClass)])
        (texts.map fun s => .classed name styleClass [.text s]) := by
  induction texts with
  | nil => rw [List.map_nil, found_nil, selectAll]
  | cons s texts ih =>
    rw [List.map_cons, selectAll, ih, Node.classed, select_leaf, ← found_append]
    rfl

/-- A query finds all nodes of the fields or none of them, as it wants fields or not. -/
theorem select_fieldNodes (h : Wants q w) (fields : List (String × String)) :
    selectAll q (fields.flatMap fieldNodes) = found w.fields (fields.flatMap fieldNodes) := by
  induction fields with
  | nil => rw [List.flatMap_nil, found_nil, selectAll]
  | cons field fields ih =>
    rw [List.flatMap_cons, selectAll_append, ih, found_append, fieldNodes, selectAll,
      select_singleton, Node.plain, select_leaf, Node.plain, select_leaf, h.term, h.description,
      ← found_append]
    rfl

/-- What is found in the content of a message. -/
theorem select_contentNodes (h : Wants q w) (content : MessageContent) :
    selectAll q (contentNodes content) =
      found w.lead [.classed "span" "notification__text" [.text content.lead]] ++
        (found w.fields (content.fields.flatMap fieldNodes) ++
          found w.code (content.code?.toList.map codeBlock)) := by
  have hlead : ∀ s, (Node.classed "span" "notification__text" [.text s]).select q =
      found w.lead [.classed "span" "notification__text" [.text s]] := fun s => by
    rw [Node.classed, select_leaf, h.lead]
  have hcode : ∀ texts : List String,
      selectAll q (texts.map codeBlock) = found w.code (texts.map codeBlock) := fun texts =>
    h.code ▸ select_leaves q "pre" "notification__code" texts
  have hsummary : (Node.plain "summary" [.text "Details"]).select q = [] := by
    rw [Node.plain, select_leaf, h.summary, found_false]
  -- a text, fields with a payload or without, and a code
  rcases content with s | ⟨summary, ⟨fields, payload⟩ | s⟩
  · rw [contentNodes, select_singleton, hlead]
    show _ = _ ++ (found w.fields [] ++ found w.code [])
    rw [found_nil, found_nil, List.append_nil, List.append_nil]
    rfl
  · rw [contentNodes, reportNodes, selectAll, select_singleton, hlead, select_group h.details,
      selectAll, hsummary, detailNodes, selectAll, select_group h.list, select_fieldNodes h, hcode]
    rfl
  · rw [contentNodes, reportNodes, selectAll, select_singleton, hlead, select_group h.details,
      selectAll, hsummary, detailNodes]
    show _ = _ ++ (found w.fields [] ++ found w.code ([s].map codeBlock))
    rw [found_nil, ← hcode]
    rfl

/-- What is found in a message is found in its parts. -/
theorem select_messageNode (h : Wants q w) (m : MessageDefinition) :
    (messageNode m).select q =
      found w.root [messageNode m] ++ (found (m.loading && w.spinner) [spinner] ++
        (found w.header (m.header.toList.map headerNode) ++
          (found w.lead [.classed "span" "notification__text" [.text m.content.lead]] ++
            (found w.fields (m.content.fields.flatMap fieldNodes) ++
              found w.code (m.content.code?.toList.map codeBlock))) ++
          found (m.dismissible && w.dismiss) [dismissButton])) := by
  -- each part stands there or not by its own flag
  have hspinner : selectAll q (if m.loading then [spinner] else []) =
      found (m.loading && w.spinner) [spinner] := by
    cases m.loading
    · rfl
    · rw [if_pos rfl, select_singleton, spinner, Node.select, h.spinner, selectAll, List.append_nil]
      rfl
  have hheader : selectAll q (m.header.toList.map headerNode) =
      found w.header (m.header.toList.map headerNode) :=
    h.header ▸ select_leaves q "div" "notification__header" m.header.toList
  have hdismiss : selectAll q (if m.dismissible then [dismissButton] else []) =
      found (m.dismissible && w.dismiss) [dismissButton] := by
    cases m.dismissible
    · rfl
    · rw [if_pos rfl, select_singleton, dismissButton, select_leaf, h.dismiss]
      rfl
  rw [messageNode, Node.classed, Node.select, h.root, selectAll_append, hspinner, selectAll,
    hdismiss, select_group h.content, selectAll_append, hheader, select_contentNodes h]
  rfl

end Select

/-! ### What is shown of a message -/

section Queries

variable {c d : String}

/-- What is looked for with a class. -/
def wantedClass (c : String) : Wanted where
  root := c == "notification"
  spinner := c == "notification__spinner"
  header := c == "notification__header"
  lead := c == "notification__text"
  fields := false
  code := c == "notification__code"
  dismiss := c == "notification__dismiss"

/-- The classes of elements that only hold others, and those of the kinds of messages. -/
def otherClasses : List String :=
  ["notification__content", "notification__details", "notification__fields"] ++
    MessageKind.all.map kindClass

/-- A class is looked up among strings as it is among lists of characters. -/
theorem contains_toList (c : String) (ds : List String) :
    (ds.map String.toList).contains c.toList = ds.contains c := by
  rw [Bool.eq_iff_iff, List.contains_iff_mem, List.contains_iff_mem,
    List.mem_map_of_injective fun _ _ h => String.toList_injective h]

/-- An attribute of one word is one class. -/
theorem hasClass_of_word {attributes : List (String × String)} (c name : String)
    (h : attributes.lookup "class" = some d) (hd : ' ' ∉ d.toList) :
    hasClass c name attributes = (c == d) := by
  rw [hasClass, h, Option.any_some, List.splitOn_eq_singleton hd]
  refine (contains_toList c [d]).trans ?_
  rw [List.contains_cons, List.contains_nil, Bool.or_false]

/-- A message has two classes. -/
theorem messageClass_eq (kind : MessageKind) :
    messageClass kind = "notification " ++ kindClass kind := by
  cases kind <;> rfl

/-- The node of a message carries the class of all messages and the one of its own kind, and no
other. -/
theorem hasClass_messageClass (c name : String) (kind : MessageKind) :
    hasClass c name [("class", messageClass kind)] =
      (c == "notification" || c == kindClass kind) := by
  have hkind : ' ' ∉ (kindClass kind).toList := by cases kind <;> decide
  have hfirst : "notification ".toList = "notification".toList ++ [' '] := rfl
  show ((messageClass kind).toList.splitOn ' ').contains c.toList = _
  rw [messageClass_eq, String.toList_append, hfirst, List.append_assoc, List.singleton_append,
    List.splitOn_append_cons_self_of_not_mem (by decide), List.splitOn_eq_singleton hkind]
  refine (contains_toList c ["notification", kindClass kind]).trans ?_
  rw [List.contains_cons, List.contains_cons, List.contains_nil, Bool.or_false]

/-- A query by a class that no inner node carries finds messages at most. -/
theorem wants_class (hc : c ∉ otherClasses) : Wants (hasClass c) (wantedClass c) := by
  -- no part of a message but its root carries one of the other classes
  have hother : ∀ d ∈ otherClasses, (c == d) = false := fun d hd =>
    beq_eq_false_iff_ne.2 fun h => hc (h ▸ hd)
  have hholds : ∀ (d name : String), d ∈ otherClasses → ' ' ∉ d.toList →
      hasClass c name [("class", d)] = false := fun d name hd hword =>
    (hasClass_of_word c name rfl hword).trans (hother d hd)
  have hkind : ∀ kind, kindClass kind ∈ otherClasses := by
    intro kind
    cases kind <;> simp [otherClasses, MessageKind.all]
  exact {
    content := hholds _ _ (by simp [otherClasses]) (by decide)
    details := hholds _ _ (by simp [otherClasses]) (by decide)
    summary := rfl
    list := hholds _ _ (by simp [otherClasses]) (by decide)
    root := fun kind => by
      rw [hasClass_messageClass, hother _ (hkind kind), Bool.or_false]
      rfl
    spinner := hasClass_of_word c _ rfl (by decide)
    header := hasClass_of_word c _ rfl (by decide)
    lead := hasClass_of_word c _ rfl (by decide)
    term := rfl
    description := rfl
    code := hasClass_of_word c _ rfl (by decide)
    dismiss := hasClass_of_word c _ rfl (by decide) }

theorem wants_fields : Wants (isNamed ["dt", "dd"]) { Wanted.nothing with fields := true } :=
  ⟨rfl, rfl, rfl, rfl, fun _ => rfl, rfl, rfl, rfl, rfl, rfl, rfl, rfl⟩

theorem wants_dismiss : Wants (isNamed ["button"]) { Wanted.nothing with dismiss := true } :=
  ⟨rfl, rfl, rfl, rfl, fun _ => rfl, rfl, rfl, rfl, rfl, rfl, rfl, rfl⟩

end Queries

/-- Each part of a message is found by its own query, and nothing else with it. -/
theorem showsMessage_messageNode (m : MessageDefinition) : ShowsMessage m (messageNode m).shown where
  root := messageClass_eq m.kind ▸ ⟨_, rfl⟩
  spinner := by
    -- each query wants one part, so that the others drop out of what it finds
    rw [Node.select_shown, select_messageNode (wants_class (by decide))]
    simp only [wantedClass, String.reduceBEq, beq_self_eq_true, found_false, Bool.and_true,
      Bool.and_false, List.append_nil, List.nil_append]
    cases m.loading <;> rfl
  header := by
    rw [Node.select_shown, select_messageNode (wants_class (by decide))]
    simp only [wantedClass, String.reduceBEq, beq_self_eq_true, found_false, found_true,
      Bool.and_false, List.append_nil, List.nil_append, List.map_map]
    rfl
  lead := by
    rw [Node.select_shown, select_messageNode (wants_class (by decide))]
    simp only [wantedClass, String.reduceBEq, beq_self_eq_true, found_false, found_true,
      Bool.and_false, List.append_nil, List.nil_append]
    rfl
  fields := by
    rw [Node.select_shown, select_messageNode wants_fields]
    simp only [Wanted.nothing, found_false, found_true, Bool.and_false, List.append_nil,
      List.nil_append, List.map_flatMap]
    rfl
  code := by
    rw [Node.select_shown, select_messageNode (wants_class (by decide))]
    simp only [wantedClass, String.reduceBEq, beq_self_eq_true, found_false, found_true,
      Bool.and_false, List.append_nil, List.nil_append, List.map_map]
    rfl
  dismiss := by
    rw [Node.select_shown, select_messageNode wants_dismiss]
    simp only [Wanted.nothing, found_false, Bool.and_true, Bool.and_false, List.append_nil,
      List.nil_append]
    cases m.dismissible <;> rfl

/-- Every message is found once in the bar, and in its place. -/
theorem select_notificationBar (ms : List MessageDefinition) :
    (notificationBar ms).select (hasClass "notification") = ms.map messageNode := by
  have hmessage : ∀ m : MessageDefinition,
      (messageNode m).select (hasClass "notification") = [messageNode m] := by
    intro m
    rw [select_messageNode (wants_class (by decide))]
    simp only [wantedClass, String.reduceBEq, beq_self_eq_true, found_false, found_true,
      Bool.and_false, List.append_nil]
  have hmessages : selectAll (hasClass "notification") (ms.map messageNode) =
      ms.map messageNode := by
    rw [selectAll_eq_flatMap, List.flatMap_map]
    simp only [hmessage]
    exact List.map_eq_flatMap.symm
  exact hmessages

/-! ### Tags do not depend on strings -/

section Tags

/-- Pieces of one string each: their tags tell only how many there are. -/
theorem tags_toList_map {f : String → Node} (hf : ∀ s s', tags [f s] = tags [f s'])
    {o o' : Option String} (h : o.isSome = o'.isSome) :
    tags (o.toList.map f) = tags (o'.toList.map f) := by
  cases o <;> cases o'
  · rfl
  · cases h
  · cases h
  · exact hf _ _

/-- Two lists of fields of one length have the same tags. -/
theorem tags_fieldNodes {fields fields' : List (String × String)}
    (h : fields.length = fields'.length) :
    tags (fields.flatMap fieldNodes) = tags (fields'.flatMap fieldNodes) := by
  induction fields generalizing fields' with
  | nil => rw [List.length_eq_zero_iff.1 h.symm]
  | cons field fields ih =>
    cases fields' with
    | nil => cases h
    | cons field' fields' =>
      exact tags_append_congr rfl (ih (Nat.succ.inj h))

/-- Two reports have the same tags when their details do. -/
theorem tags_reportNodes {r r' : Report}
    (h : tags (detailNodes r.details) = tags (detailNodes r'.details)) :
    tags (reportNodes r) = tags (reportNodes r') :=
  tags_cons_congr rfl (tags_element_congr (tags_cons_congr rfl h))

/-- Two contents of one outline have the same tags: their texts make no difference. -/
theorem tags_contentNodes {content content' : MessageContent}
    (h : content.outline = content'.outline) :
    tags (contentNodes content) = tags (contentNodes content') := by
  rcases content with s | ⟨summary, ⟨fields, payload⟩ | s⟩ <;>
    rcases content' with s' | ⟨summary', ⟨fields', payload'⟩ | s'⟩ <;>
    try cases h
  · rfl
  · obtain ⟨hfields, hpayload⟩ := ContentOutline.api.inj h
    exact tags_reportNodes (tags_cons_congr (tags_element_congr (tags_fieldNodes hfields))
      (tags_toList_map (fun _ _ => rfl) hpayload))
  · rfl

/-- Two messages of one outline have the same tags. -/
theorem tags_messageNode {m m' : MessageDefinition} (h : m.outline = m'.outline) :
    tags [messageNode m] = tags [messageNode m'] := by
  obtain ⟨hkind, hheader, hcontent, hdismissible, hloading⟩ := MessageOutline.mk.inj h
  rw [messageNode, messageNode, hkind, hdismissible, hloading]
  have hinside := tags_append_congr (tags_toList_map (f := headerNode) (fun _ _ => rfl) hheader)
    (tags_contentNodes hcontent)
  exact tags_element_congr (tags_append_congr rfl
    (tags_cons_congr (tags_element_congr hinside) rfl))

/-- Two queues whose messages have the same outlines have the same tags. -/
theorem tags_messages {ms ms' : List MessageDefinition}
    (h : ms.map MessageDefinition.outline = ms'.map MessageDefinition.outline) :
    tags (ms.map messageNode) = tags (ms'.map messageNode) := by
  induction ms generalizing ms' with
  | nil => rw [List.map_eq_nil_iff.1 h.symm]
  | cons m ms ih =>
    cases ms' with
    | nil => cases h
    | cons m' ms' =>
      obtain ⟨hm, hms⟩ := List.cons.inj h
      exact tags_cons_congr (tags_messageNode hm) (ih hms)

end Tags

/-! ### The main statement -/

/-- Whatever the strings of the messages are, the text of the bar is read as one element for each
message, in their order, with the parts and the strings of the message; and the tags are the same
for all messages that have the same parts. -/
theorem notificationBar_read (ms : List MessageDefinition) :
    (∃ bar, nodes? (render [notificationBar ms]).toList = some [bar] ∧
      List.Forall₂ ShowsMessage ms (bar.select (hasClass "notification"))) ∧
    ∀ ms' : List MessageDefinition,
      ms.map MessageDefinition.outline = ms'.map MessageDefinition.outline →
      tags? (render [notificationBar ms]).toList = tags? (render [notificationBar ms']).toList := by
  constructor
  · refine ⟨(notificationBar ms).shown, ?_, ?_⟩
    · rw [render, String.toList_ofList]
      exact nodes?_writeAll (tidyAll_notificationBar ms)
    · rw [Node.select_shown, select_notificationBar, List.map_map, List.forall₂_map_right_iff,
        List.forall₂_same]
      exact fun m _ => showsMessage_messageNode m
  · intro ms' h
    rw [render, render, String.toList_ofList, String.toList_ofList,
      tags?_writeAll (tidyAll_notificationBar ms), tags?_writeAll (tidyAll_notificationBar ms')]
    exact congrArg some (tags_element_congr (tags_messages h))

/-- A text that looks like tags leads to the same tags as any other. -/
theorem notificationBar_read_tagsInText :
    [MessageDefinition.ofText .info "</span><b class=\"x\">&lt;"].map MessageDefinition.outline =
      [MessageDefinition.ofText .info "done"].map MessageDefinition.outline ∧
    tags? (render [notificationBar
        [.ofText .info "</span><b class=\"x\">&lt;"]]).toList =
      tags? (render [notificationBar [.ofText .info "done"]]).toList := by
  have houtline : [MessageDefinition.ofText .info "</span><b class=\"x\">&lt;"].map
      MessageDefinition.outline =
      [MessageDefinition.ofText .info "done"].map MessageDefinition.outline := rfl
  exact ⟨houtline, (notificationBar_read _).2 _ houtline⟩

end AppShell
