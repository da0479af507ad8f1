import Fieldwise.Proofs.Template.Seam
import Fieldwise.Proofs.Template.Structure

/-!
# Templates behind one another

Two templates written one behind the other make up a template again, with the nodes of the first
before those of the second. Only text may differ, where the two meet.

* `Grammar.IsItems.drop_texts_right`, `Grammar.IsItems.drop_texts_left` : text at either end of
  some items can be left out. No other item ends or begins with text.
* `withoutText` : the nodes that are no text.
* `exists_ofSource_append` : the concatenation of two sources is read as the nodes of both, up to
  places and text.
-/

set_option autoImplicit false

namespace Fieldwise

/-- A node that is nothing but text. -/
def Node.isText : Node → Bool
  | .text _ _ => true
  | _ => false

/-- The nodes that are no text. -/
def withoutText (nodes : List Node) : List Node :=
  nodes.filter fun node => !node.isText

theorem withoutText_append (nodes nodes' : List Node) :
    withoutText (nodes ++ nodes') = withoutText nodes ++ withoutText nodes' :=
  List.filter_append ..

theorem withoutText_cons_congr (node : Node) {nodes nodes' : List Node}
    (h : withoutText nodes' = withoutText nodes) :
    withoutText (node :: nodes') = withoutText (node :: nodes) := by
  unfold withoutText at h ⊢
  rw [List.filter_cons, List.filter_cons, h]

theorem withoutText_cons_of_isText {node : Node} (h : node.isText = true) (nodes : List Node) :
    withoutText (node :: nodes) = withoutText nodes :=
  List.filter_cons_of_neg (by simp [h])

theorem bareNodes_append (nodes nodes' : List Node) :
    bareNodes (nodes ++ nodes') = bareNodes nodes ++ bareNodes nodes' := by
  induction nodes with
  | nil => rfl
  | cons node rest ih => rw [List.cons_append, bareNodes, bareNodes, ih, List.cons_append]

theorem Node.isText_bare (node : Node) : node.bare.isText = node.isText := by
  cases node <;> rfl

theorem bareNodes_withoutText (nodes : List Node) :
    bareNodes (withoutText nodes) = withoutText (bareNodes nodes) := by
  induction nodes with
  | nil => rfl
  | cons node rest ih =>
    unfold withoutText at ih ⊢
    rw [bareNodes, List.filter_cons, List.filter_cons, Node.isText_bare]
    split
    · rw [bareNodes, ih]
    · exact ih

namespace Grammar

open Scan

variable {d : Nat} {loop : Bool} {Γ Δ : Scope} {ts us xs : List Token} {node : Node}
  {nodes : List Node}

/-! ## Where items end -/

/-- The last token is a right delimiter. -/
def Closed (ts : List Token) : Prop :=
  ts.getLast?.map Token.kind = some .rightDelim

theorem Closed.append (ts : List Token) (h : Closed us) : Closed (ts ++ us) := by
  unfold Closed at h ⊢
  rw [List.getLast?_append]
  cases hlast : us.getLast? with
  | none =>
    rw [hlast] at h
    cases h
  | some t => rwa [hlast] at h

theorem Closed.cons (t : Token) (h : Closed us) : Closed (t :: us) :=
  h.append [t]

theorem closed_singleton {t : Token} (h : t.kind = .rightDelim) : Closed [t] :=
  congrArg some h

theorem Closed.ne_nil (h : Closed ts) : ts ≠ [] := by
  rintro rfl
  cases h

/-- Text is not closed. -/
theorem not_closed_append (ts : List Token) (hne : xs ≠ []) (hx : AllText xs) :
    ¬ Closed (ts ++ xs) := by
  intro h
  unfold Closed at h
  rw [List.getLast?_append, List.getLast?_eq_some_getLast hne] at h
  obtain ⟨s, hs⟩ := hx _ (List.getLast_mem hne)
  cases hs.symm.trans (Option.some.inj h)

theorem IsWord.closed {k : Keyword} {pos : Pos} (h : IsWord k pos ts) : Closed ts := by
  cases h with
  | mk _ _ hc => exact ((closed_singleton hc).cons _).cons _

mutual

theorem IsStructure.closed : ∀ {kind : BranchKind} {d : Nat} {loop : Bool} {Γ : Scope}
    {ts : List Token} {pipe : Pipeline Operand} {body : NodeList Node}
    {alternative : Option (NodeList Node)}, IsStructure kind d loop Γ ts pipe body alternative →
    Closed ts
  | _, _, _, _, _, _, _, _, .mk _ _ _ _ hr _ => ((hr.closed.append _).cons _).append _

/-- The tail of a control structure reaches to its end. -/
theorem IsTail.closed : ∀ {kind : BranchKind} {d : Nat} {loop : Bool} {Γ : Scope}
    {ts : List Token} {alternative : Option (NodeList Node)},
    IsTail kind d loop Γ ts alternative → Closed ts
  | _, _, _, _, _, _, .plain he => he.closed
  | _, _, _, _, _, _, .divided _ _ he _ => (he.closed.append _).append _
  | _, _, _, _, _, _, .chained _ _ _ _ h => ((h.closed.cons _).cons _).cons _

end

/-- An item is a text or ends with a right delimiter. -/
theorem IsItem.text_or_closed (h : IsItem d loop Γ ts node Δ) :
    (∃ t s, ts = [t] ∧ t.kind = .text s) ∨ Closed ts := by
  cases h with
  | text h => exact .inl ⟨_, _, rfl, h⟩
  | action _ _ hc => exact .inr (((closed_singleton hc).append _).cons _)
  | template _ _ _ hc => exact .inr ((((closed_singleton hc).cons _).cons _).cons _)
  | templateWith _ _ _ _ hc =>
    exact .inr (((((closed_singleton hc).append _).cons _).cons _).cons _)
  | leave h => exact .inr h.closed
  | skip h => exact .inr h.closed
  | branch _ _ h => exact .inr ((h.closed.cons _).cons _)

theorem IsItem.ne_nil (h : IsItem d loop Γ ts node Δ) : ts ≠ [] := by
  rcases h.text_or_closed with ⟨t, s, rfl, -⟩ | h
  · exact List.cons_ne_nil _ _
  · exact h.ne_nil

/-- An item that begins with text is that text. -/
theorem IsItem.eq_text {t : Token} {s : String} (h : IsItem d loop Γ (t :: ts) node Δ)
    (ht : t.kind = .text s) : ts = [] ∧ node.isText = true ∧ Δ = Γ := by
  generalize hus : t :: ts = us at h
  have hopening : ∀ {opening : Token} {us : List Token}, opening.kind = .leftDelim →
      t :: ts ≠ opening :: us := by
    rintro _ _ ho heq
    cases heq
    cases ht.symm.trans ho
  cases h with
  | text h =>
    obtain ⟨rfl, rfl⟩ := List.cons.inj hus
    exact ⟨rfl, rfl, rfl⟩
  | action ho | template ho | templateWith ho | branch ho => exact absurd hus (hopening ho)
  | leave h | skip h =>
    cases h with
    | mk ho => exact absurd hus (hopening ho)

/-! ## Items without the text around them -/

theorem IsItems.append : ∀ {d : Nat} {loop : Bool} {Γ Δ : Scope} {ts : List Token}
    {nodes : List Node}, IsItems d loop Γ ts nodes Δ → ∀ {Θ : Scope} {us : List Token}
    {nodes' : List Node}, IsItems d loop Δ us nodes' Θ →
    IsItems d loop Γ (ts ++ us) (nodes ++ nodes') Θ
  | _, _, _, _, _, _, .nil, _, _, _, h' => h'
  | _, _, _, _, _, _, .cons h hrest, _, _, _, h' => by
    rw [List.append_assoc]
    exact .cons h (hrest.append h')

/-- Text is a row of items. -/
theorem isItems_of_allText (d : Nat) (loop : Bool) (Γ : Scope) (hx : AllText xs) :
    ∃ nodes, IsItems d loop Γ xs nodes Γ ∧ withoutText nodes = [] := by
  induction xs with
  | nil => exact ⟨[], .nil, rfl⟩
  | cons t xs ih =>
    obtain ⟨⟨s, ht⟩, hx⟩ := List.forall_mem_cons.mp hx
    obtain ⟨nodes, hnodes, htext⟩ := ih hx
    exact ⟨.text t.pos s :: nodes, .cons (.text ht) hnodes, htext⟩

/-- Text behind some items can be left out. -/
theorem IsItems.drop_texts_right : ∀ {d : Nat} {loop : Bool} {Γ Δ : Scope} {us : List Token}
    {nodes : List Node}, IsItems d loop Γ us nodes Δ → ∀ (ts : List Token) {xs : List Token},
    us = ts ++ xs → AllText xs →
    ∃ nodes', IsItems d loop Γ ts nodes' Δ ∧ withoutText nodes' = withoutText nodes
  | _, _, _, _, _, _, .nil, ts, xs, heq, _ => by
    rw [(List.append_eq_nil_iff.mp heq.symm).1]
    exact ⟨[], .nil, rfl⟩
  | _, _, _, _, _, _, @IsItems.cons _ _ _ _ _ vs us node nodes h hrest, ts, xs, heq, hx => by
    rcases List.append_eq_append_iff.mp heq with ⟨ws, rfl, hus⟩ | ⟨ws, rfl, rfl⟩
    · obtain ⟨nodes', hnodes, hsame⟩ := hrest.drop_texts_right ws hus hx
      exact ⟨node :: nodes', .cons h hnodes, withoutText_cons_congr node hsame⟩
    · -- the item at hand reaches up to the text or is text itself
      obtain ⟨hws, hus⟩ := List.forall_mem_append.mp hx
      obtain ⟨nodes', hnodes, hsame⟩ := hrest.drop_texts_right [] rfl hus
      cases ws with
      | nil =>
        rw [List.append_nil] at h
        have hitems := IsItems.cons h hnodes
        rw [List.append_nil] at hitems
        exact ⟨node :: nodes', hitems, withoutText_cons_congr node hsame⟩
      | cons w ws =>
        rcases h.text_or_closed with ⟨t, s, hts, ht⟩ | hclosed
        · obtain ⟨rfl, hone⟩ | ⟨_, hnil⟩ := List.append_eq_singleton_iff.mp hts
          · cases hone
            obtain ⟨-, htext, rfl⟩ := h.eq_text ht
            exact ⟨nodes', hnodes, hsame.trans (withoutText_cons_of_isText htext nodes).symm⟩
          · cases hnil
        · exact absurd hclosed (not_closed_append ts (List.cons_ne_nil _ _) hws)

/-- Text before some items can be left out. -/
theorem IsItems.drop_texts_left (hx : AllText xs) :
    ∀ {nodes : List Node}, IsItems d loop Γ (xs ++ ts) nodes Δ →
    ∃ nodes', IsItems d loop Γ ts nodes' Δ ∧ withoutText nodes' = withoutText nodes := by
  induction xs with
  | nil => exact fun h => ⟨_, h, rfl⟩
  | cons x xs ih =>
    obtain ⟨⟨s, hs⟩, hx⟩ := List.forall_mem_cons.mp hx
    intro nodes h
    generalize hall : x :: xs ++ ts = all at h
    cases h with
    | nil => cases hall
    | @cons _ _ _ _ _ vs us node nodes hitem hrest =>
      obtain ⟨v, vs, rfl⟩ := List.exists_cons_of_ne_nil hitem.ne_nil
      rw [List.cons_append, List.cons_append] at hall
      obtain ⟨rfl, htail⟩ := List.cons.inj hall
      obtain ⟨rfl, htext, rfl⟩ := hitem.eq_text hs
      rw [List.nil_append] at htail
      subst htail
      obtain ⟨nodes', hnodes, hsame⟩ := ih hx hrest
      exact ⟨nodes', hnodes, hsame.trans (withoutText_cons_of_isText htext nodes).symm⟩

end Grammar

/-! ## The concatenation of two sources -/

open Grammar Scan

/-- The tokens of a template are those of its items, up to the end of the source. -/
theorem derives_tokens_iff {scan : Scan} {template : Template} :
    Derives scan.tokens template ↔ StartsAt scan.tokens template.pos ∧
      ∃ Γ, IsItems 0 false [rootVariable] scan.content template.nodes Γ := by
  constructor
  · rintro ⟨items, finish, Γ, htokens, hfinish, hpos, hitems⟩
    obtain ⟨rfl, -⟩ := List.append_inj' (scan.tokens_eq_content.symm.trans htokens) rfl
    exact ⟨hpos, Γ, hitems⟩
  · rintro ⟨hpos, Γ, hitems⟩
    exact ⟨_, _, Γ, scan.tokens_eq_content, rfl, hpos, hitems⟩

theorem ofSource_eq_ok_iff {source : String} {template : Template} :
    Template.ofSource source = .ok template ↔ ∃ scan, Scan.ofSource source = .ok scan ∧
      StartsAt scan.tokens template.pos ∧
      ∃ Γ, IsItems 0 false [rootVariable] scan.content template.nodes Γ := by
  unfold Template.ofSource
  cases hscan : Scan.ofSource source with
  | error e => simp
  | ok scan =>
    simp only [Except.ok.injEq, exists_eq_left']
    rw [Template.ofScan_eq_ok_iff (wellFormed_of_ofSource hscan), derives_tokens_iff]

/-- Items that are put together are items, with the nodes of both but for text. -/
theorem exists_isItems_of_joins {ss ts us : List Token} {nodes nodes' : List Node} {Γ Δ Θ : Scope}
    (h : Joins ss ts us) (hs : IsItems 0 false Γ ss nodes Δ) (ht : IsItems 0 false Γ ts nodes' Θ) :
    ∃ joined Θ', IsItems 0 false Γ us joined Θ' ∧
      bareNodes (withoutText joined) =
        bareNodes (withoutText nodes) ++ bareNodes (withoutText nodes') := by
  obtain ⟨rfl, rfl, rfl, hfront, hback, hbefore, hbetween, hafter⟩ := h
  obtain ⟨front, hfrontItems, hfrontSame⟩ := hs.drop_texts_right _ rfl hbefore
  obtain ⟨back, hbackItems, hbackSame⟩ := IsItems.drop_texts_left hafter ht
  obtain ⟨front', Δ', hfrontItems', hfrontBare, -⟩ :=
    hfrontItems.relocate hfront (List.Subset.refl _)
  obtain ⟨texts, htexts, hnone⟩ := isItems_of_allText 0 false Δ' hbetween
  obtain ⟨back', Θ', hbackItems', hbackBare, -⟩ := hbackItems.relocate hback hfrontItems'.subset
  refine ⟨_, Θ', hfrontItems'.append (htexts.append hbackItems'), ?_⟩
  rw [withoutText_append, withoutText_append, hnone, List.nil_append, bareNodes_append,
    ← hfrontSame, ← hbackSame]
  simp only [bareNodes_withoutText, hfrontBare, hbackBare]

/-- **The concatenation of two templates is a template** with the nodes of both, up to places and
text, unless a left delimiter comes about where they meet. -/
theorem exists_ofSource_append {A B : String} {a b : Template} (ha : Template.ofSource A = .ok a)
    (hb : Template.ofSource B = .ok b) (hseam : ¬ OpensAcross A.toList B.toList) :
    ∃ c, Template.ofSource (A ++ B) = .ok c ∧
      bareNodes (withoutText c.nodes) =
        bareNodes (withoutText a.nodes) ++ bareNodes (withoutText b.nodes) := by
  obtain ⟨s, hs, -, Γ, hsItems⟩ := ofSource_eq_ok_iff.mp ha
  obtain ⟨t, ht, -, Δ, htItems⟩ := ofSource_eq_ok_iff.mp hb
  obtain ⟨u, hu, hjoins⟩ := readSegments_append hs ht hseam .start
  obtain ⟨nodes, Θ, huItems, hbare⟩ := exists_isItems_of_joins hjoins hsItems htItems
  have hscan : Scan.ofSource (A ++ B) = .ok u := by
    rw [Scan.ofSource, String.toList_append, hu]
  have hspells : Spells u.finish u.segments u.tokens := ⟨wellFormed_of_ofSource hscan, rfl⟩
  exact ⟨⟨_, nodes⟩,
    ofSource_eq_ok_iff.mpr ⟨u, hscan, Assembly.startsAt_startOf hspells, Θ, huItems⟩, hbare⟩

end Fieldwise
