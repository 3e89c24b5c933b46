import MachineDriver.Proofs.OutlineTokens

set_option autoImplicit false

/-!
# Outlines are read back

A mapping that is an outline is the value of its text, `ofText?_toText_mapping`. Its tokens are read
as the node that is built like it; the node has no anchors and no tags, so it means the mapping. -/

namespace MachineDriver.Yaml

/-! ## Nodes -/

mutual

/-- The node of an outline. -/
def outlineNode : Yaml → Node
  | .mapping es => .mapping {} (entryNodes es)
  | v => .scalar {} true ((plainText? v).getD [])

/-- The nodes of the entries of an outline. -/
def entryNodes : List (Yaml × Yaml) → List (Node × Node)
  | [] => []
  | (k, v) :: es => (outlineNode k, outlineNode v) :: entryNodes es

end

theorem outlineNode_of_isWord {v : Yaml} {cs : List Char} (h : IsWord v cs) :
    outlineNode v = .scalar {} true cs := by
  have hwritten := h.written
  cases v with
  | mapping es => cases hwritten
  | _ =>
    rw [outlineNode, hwritten, Option.getD_some]
    exact nofun

namespace Node

/-- With as many steps as tokens a value is read as its node. -/
def IsReadAsNode (v : Yaml) : Prop :=
  ∀ (fuel : Nat) (indentless : Bool) (rest : List Token), (outlineTokens v).length ≤ fuel →
    readNode [] fuel true indentless (outlineTokens v ++ rest) = some (outlineNode v, rest)

theorem isReadAsNode_word {v : Yaml} {cs : List Char} (h : IsWord v cs) : IsReadAsNode v := by
  intro fuel indentless rest hfuel
  rw [outlineTokens_of_isWord h] at hfuel ⊢
  obtain ⟨fuel, rfl⟩ := Nat.exists_eq_add_of_le' hfuel
  rw [outlineNode_of_isWord h]
  cases indentless <;> rfl

/-- An outline begins with a scalar or the start of a mapping. -/
theorem exists_outlineTokens_eq_cons (v : Yaml) :
    ∃ t ts, outlineTokens v = t :: ts ∧ (t = .blockMappingStart ∨ ∃ cs, t = .scalar true cs) := by
  cases v with
  | mapping es => exact ⟨_, _, rfl, .inl rfl⟩
  | _ => exact ⟨_, _, rfl, .inr ⟨_, rfl⟩⟩

/-- A value that is an outline is not missing. -/
theorem readOptional_outlineTokens (fuel : Nat) (block indentless : Bool) (v : Yaml)
    (ts : List Token) :
    readOptional [] (fuel + 1) [.key, .value, .blockEnd] block indentless (outlineTokens v ++ ts)
      = readNode [] fuel block indentless (outlineTokens v ++ ts) := by
  obtain ⟨t, rest, htokens, rfl | ⟨cs, rfl⟩⟩ := exists_outlineTokens_eq_cons v
  · rw [htokens]
    rfl
  · rw [htokens]
    rfl

/-- Entries are read up to the end of their mapping. -/
theorem readEntries_entryTokens {es : List (Yaml × Yaml)} (hkeys : ∀ e ∈ es, ∃ cs, IsWord e.1 cs)
    (hvalues : ∀ e ∈ es, IsReadAsNode e.2) (fuel : Nat) (rest : List Token)
    (hfuel : (entryTokens es).length < fuel) :
    readEntries [] fuel (entryTokens es ++ .blockEnd :: rest) = some (entryNodes es, rest) := by
  induction es generalizing fuel with
  | nil =>
    obtain ⟨fuel, rfl⟩ := Nat.exists_eq_add_of_lt hfuel
    rfl
  | cons e es ih =>
    obtain ⟨k, v⟩ := e
    obtain ⟨cs, hk⟩ := hkeys _ List.mem_cons_self
    have hvalue := hvalues _ List.mem_cons_self
    have hlength : (entryTokens ((k, v) :: es)).length
        = (outlineTokens v).length + (entryTokens es).length + 3 := by
      simp [entryTokens, outlineTokens_of_isWord hk]
    obtain ⟨fuel, rfl⟩ := Nat.exists_eq_add_of_le' (show 3 ≤ fuel by omega)
    have htokens : entryTokens ((k, v) :: es) ++ .blockEnd :: rest = .key :: (outlineTokens k
        ++ (.value :: (outlineTokens v ++ (entryTokens es ++ .blockEnd :: rest)))) := by
      simp [entryTokens]
    have hkey (ts : List Token) : readOptional [] (fuel + 2) [.key, .value, .blockEnd] true true
        (outlineTokens k ++ ts) = some (outlineNode k, ts) := by
      rw [readOptional_outlineTokens]
      exact isReadAsNode_word hk _ _ _ (by simp [outlineTokens_of_isWord hk])
    have hread (ts : List Token) : readValue [] (fuel + 2) [.key, .value, .blockEnd] true
        (.value :: (outlineTokens v ++ ts)) = some (outlineNode v, ts) := by
      have hv : (outlineTokens v).length ≤ fuel := by omega
      rw [readValue, readOptional_outlineTokens]
      exact hvalue fuel true ts hv
    rw [htokens, readEntries]
    simp only [hkey, hread]
    rw [ih (fun e he => hkeys e (List.mem_cons_of_mem _ he))
      (fun e he => hvalues e (List.mem_cons_of_mem _ he)) _ (by omega)]
    rfl

theorem readNode_blockMappingStart (fuel : Nat) (indentless : Bool) (ts : List Token) :
    readNode [] (fuel + 1) true indentless (.blockMappingStart :: ts)
      = (readEntries [] fuel ts).map fun (es, ts) => (.mapping {} es, ts) := by
  cases indentless <;> rfl

/-- An outline is read as its node. -/
theorem isReadAsNode_of_isOutline {depth : Nat} {v : Yaml} (h : IsOutline depth v) :
    IsReadAsNode v := by
  induction h with
  | word h => exact isReadAsNode_word h
  | @mapping depth es hne hkeys _ _ ih =>
    intro fuel indentless rest hfuel
    have hlength : (outlineTokens (.mapping es)).length = (entryTokens es).length + 2 := by
      simp [outlineTokens]
    obtain ⟨fuel, rfl⟩ := Nat.exists_eq_add_of_le' (show 1 ≤ fuel by omega)
    have htokens : outlineTokens (.mapping es) ++ rest
        = .blockMappingStart :: (entryTokens es ++ .blockEnd :: rest) := by
      simp [outlineTokens]
    have hentries := readEntries_entryTokens hkeys ih fuel rest (by omega)
    rw [htokens, outlineNode, readNode_blockMappingStart, hentries]
    rfl

/-- The text of an outline is one document. -/
theorem ofTokens?_outlineTokens {depth : Nat} {v : Yaml} (h : IsOutline depth v) :
    ofTokens? (outlineTokens v) = some [outlineNode v] := by
  have hnode := isReadAsNode_of_isOutline h (4 * (outlineTokens v).length + 8) false []
    (by omega)
  rw [List.append_nil] at hnode
  have hstart : atDocumentStart (outlineTokens v) = false
      ∧ atDocumentEnd (outlineTokens v) = false
      ∧ isAt [.documentEnd] (outlineTokens v) = false ∧ (outlineTokens v).isEmpty = false := by
    obtain ⟨t, rest, htokens, rfl | ⟨cs, rfl⟩⟩ := exists_outlineTokens_eq_cons v <;>
      rw [htokens] <;> exact ⟨rfl, rfl, rfl, rfl⟩
  rw [ofTokens?, readDocuments?]
  simp [hstart, readContents?, hnode, readDocuments?]

end Node

/-! ## Values -/

mutual

/-- The node of an outline without names. -/
def outlineLinked : Yaml → Linked
  | .mapping es => .mapping none (entryLinks es)
  | v => .scalar none true ((plainText? v).getD [])

/-- The nodes of the entries of an outline without names. -/
def entryLinks : List (Yaml × Yaml) → List (Linked × Linked)
  | [] => []
  | (k, v) :: es => (outlineLinked k, outlineLinked v) :: entryLinks es

end

theorem outlineLinked_of_isWord {v : Yaml} {cs : List Char} (h : IsWord v cs) :
    outlineLinked v = .scalar none true cs := by
  have hwritten := h.written
  cases v with
  | mapping es => cases hwritten
  | _ =>
    rw [outlineLinked, hwritten, Option.getD_some]
    exact nofun

/-- An outline has no names, so linking finds none. -/
def IsLinked (v : Yaml) : Prop :=
  ∀ links, ∃ links', link? links (outlineNode v) = some (outlineLinked v, links')

theorem isLinked_word {v : Yaml} {cs : List Char} (h : IsWord v cs) : IsLinked v := by
  intro links
  rw [outlineNode_of_isWord h, outlineLinked_of_isWord h]
  exact ⟨_, rfl⟩

theorem exists_linkEntries?_entryNodes {es : List (Yaml × Yaml)}
    (hkeys : ∀ e ∈ es, ∃ cs, IsWord e.1 cs) (hvalues : ∀ e ∈ es, IsLinked e.2) (links : Links) :
    ∃ links', linkEntries? links (entryNodes es) = some (entryLinks es, links') := by
  induction es generalizing links with
  | nil => exact ⟨links, rfl⟩
  | cons e es ih =>
    obtain ⟨k, v⟩ := e
    obtain ⟨cs, hk⟩ := hkeys _ List.mem_cons_self
    obtain ⟨links₁, hkey⟩ := isLinked_word hk links
    obtain ⟨links₂, hvalue⟩ := hvalues _ List.mem_cons_self links₁
    obtain ⟨links₃, hrest⟩ := ih (fun e he => hkeys e (List.mem_cons_of_mem _ he))
      (fun e he => hvalues e (List.mem_cons_of_mem _ he)) links₂
    refine ⟨links₃, ?_⟩
    rw [entryNodes, linkEntries?, hkey]
    simp only at hvalue ⊢
    rw [hvalue]
    simp only [hrest]
    rfl

theorem isLinked_of_isOutline {depth : Nat} {v : Yaml} (h : IsOutline depth v) : IsLinked v := by
  induction h with
  | word h => exact isLinked_word h
  | mapping _ hkeys _ _ ih =>
    intro links
    obtain ⟨links', hentries⟩ := exists_linkEntries?_entryNodes hkeys ih links.mark
    refine ⟨links'.mark, ?_⟩
    rw [outlineNode, link?]
    simp only [Links.name, hentries]
    rfl

/-- A value is read as itself, wherever collections may be nested to a depth. -/
def IsMeant (depth : Nat) (v : Yaml) : Prop :=
  ∀ links followed, readDepth? links depth false (outlineLinked v) followed = some (v, followed)

theorem isMeant_word {v : Yaml} {cs : List Char} (h : IsWord v cs) (depth : Nat) :
    IsMeant depth v := by
  intro links followed
  have hread (child : Option NodeReader) :
      readBody? child false (.scalar none true cs) followed = some (v, followed) := by
    rw [readBody?, ofScalar?]
    simp only [h.means]
    rfl
  rw [outlineLinked_of_isWord h]
  cases depth with
  | zero => exact hread none
  | succ depth => exact hread (some (readDepth? links depth))

theorem readEntries?_entryLinks {child : NodeReader} (seen : List (Yaml × Yaml))
    {es : List (Yaml × Yaml)}
    (hkeys : ∀ e ∈ es, ∀ followed, child false (outlineLinked e.1) followed = some (e.1, followed))
    (hvalues : ∀ e ∈ es, ∀ followed,
      child false (outlineLinked e.2) followed = some (e.2, followed))
    (hseen : (seen.reverse ++ es).Pairwise fun e f => same e.1 f.1 = false) (followed : Nat) :
    readEntries? child false seen (entryLinks es) followed
      = some (seen.reverse ++ es, followed) := by
  induction es generalizing seen with
  | nil => simp [entryLinks, readEntries?]
  | cons e es ih =>
    obtain ⟨k, v⟩ := e
    have hnew : (seen.any fun e => same e.1 k) = false := by
      rw [List.any_eq_false]
      intro e he
      have hpair := (List.pairwise_append.mp hseen).2.2 e (List.mem_reverse.mpr he) (k, v)
        List.mem_cons_self
      simpa using hpair
    have hmore : (((k, v) :: seen).reverse ++ es).Pairwise fun e f => same e.1 f.1 = false := by
      simpa using hseen
    rw [entryLinks, readEntries?, hkeys _ List.mem_cons_self]
    simp only [hnew]
    rw [hvalues _ List.mem_cons_self]
    simpa using ih ((k, v) :: seen) (fun e he => hkeys e (List.mem_cons_of_mem _ he))
      (fun e he => hvalues e (List.mem_cons_of_mem _ he)) hmore

/-- An outline means itself. -/
theorem isMeant_of_isOutline {depth : Nat} {v : Yaml} (h : IsOutline depth v) :
    IsMeant depth v := by
  induction h with
  | word h => exact isMeant_word h _
  | @mapping depth es hne hkeys hdistinct _ ih =>
    intro links followed
    have hread : readEntries? (readDepth? links depth) false [] (entryLinks es) followed
        = some ([].reverse ++ es, followed) :=
      readEntries?_entryLinks []
        (fun e he followed => (hkeys e he).elim fun cs hk => isMeant_word hk depth links followed)
        (fun e he followed => ih e he links followed) hdistinct followed
    change (readEntries? (readDepth? links depth) false [] (entryLinks es) followed).map _ = _
    rw [hread]
    rfl

/-- **A mapping that is an outline is read back from its text.** -/
theorem ofText?_toText_mapping {es : List (Yaml × Yaml)} (h : IsOutline 128 (.mapping es)) :
    ofText? (toText (.mapping es)) = some (.mapping es) := by
  have hnodes : nodes? (toText (.mapping es)) = some [outlineNode (.mapping es)] := by
    rw [nodes?, tokens?_toText_mapping h]
    exact Node.ofTokens?_outlineTokens h
  obtain ⟨links, hlinks⟩ := isLinked_of_isOutline h {}
  have hnode : ofNode? (outlineNode (.mapping es)) = some (.mapping es) := by
    rw [ofNode?, hlinks]
    simp only
    rw [isMeant_of_isOutline h]
    rfl
  rw [ofText?, documents?, hnodes]
  simp only [allOfNodes?, hnode]
  rfl

end MachineDriver.Yaml
