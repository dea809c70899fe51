import SignalScript.Proofs.Parser.Scripts
import SignalScript.Proofs.Tree.WellFormed

/-!
# Parsed scripts are well formed

The grammar only derives phrases whose spots are well formed, and every script that a
parser hands out lists the phrases of a derivation.
-/

namespace SignalScript

open Branch

/-! ## Kinds -/

theorem Expr.isExpr_branches (exprs : List Expr) :
    ∀ kind ∈ (Expr.branches exprs).map Branch.kind, kind.isExpr = true := by
  induction exprs with
  | nil => simp [Expr.branches]
  | cons first rest ih =>
      have hfirst : first.branch.kind.isExpr = true := by
        cases first with
        | value line text => rfl
        | operator line text => rfl
        | enclosure line exprs => rfl
      rw [Expr.branches, List.map_cons]
      exact List.forall_mem_cons.mpr ⟨hfirst, ih⟩

@[simp]
theorem Phrase.isPhrase_branch (isAlternate : Bool) (phrase : Phrase) :
    (phrase.branch isAlternate).kind.isPhrase = true := by
  cases phrase with
  | statement line exprs => rfl
  | block line phrases => rfl
  | conditional condition body => rfl
  | alternative condition body alternate => rfl

theorem Phrase.isPhrase_branches (phrases : List Phrase) :
    ∀ kind ∈ (Phrase.branches phrases).map Branch.kind, kind.isPhrase = true := by
  induction phrases with
  | nil => simp [Phrase.branches]
  | cons first rest ih =>
      rw [Phrase.branches, List.map_cons]
      exact List.forall_mem_cons.mpr ⟨first.isPhrase_branch false, ih⟩

/-! ## Spots -/

namespace Branch

variable {parentKind : NodeKind} {parent position id first : Nat}

theorem forall_spots {holds : Spot → Prop} {kind : NodeKind} {line : Nat} {children : List Branch}
    (htop : holds ⟨parentKind, parent, position, id, .node kind line children⟩)
    (hbelow : ∀ spot ∈ forestSpots kind id 0 (id + 1) children, holds spot) :
    ∀ spot ∈ spots parentKind parent position id (.node kind line children), holds spot := by
  rw [spots]
  exact List.forall_mem_cons.mpr ⟨htop, hbelow⟩

theorem forall_forestSpots {holds : Spot → Prop} {branch : Branch} {rest : List Branch}
    (hfirst : ∀ spot ∈ spots parentKind parent position first branch, holds spot)
    (hrest : ∀ spot ∈ forestSpots parentKind parent (position + 1) (first + branch.size) rest,
      holds spot) :
    ∀ spot ∈ forestSpots parentKind parent position first (branch :: rest), holds spot := by
  rw [forestSpots]
  exact List.forall_mem_append.mpr ⟨hfirst, hrest⟩

end Branch

namespace Grammar

variable {parentKind : NodeKind} {parent position id first : Nat}

private theorem wellFormed_leaf {token : Token} {expr : Expr} (hleaf : Leaf token expr) :
    ∀ spot ∈ spots parentKind parent position id expr.branch, spot.WellFormed := by
  cases hleaf with
  | value text line hkeyword hoperator =>
      refine forall_spots ⟨rfl, nofun, nofun, fun other hother => ?_⟩ nofun
      obtain rfl := NodeKind.value.inj hother
      exact ⟨hkeyword, hoperator⟩
  | word text line hoperator => exact forall_spots ⟨rfl, nofun, nofun, nofun⟩ nofun
  | operator text line => exact forall_spots ⟨rfl, nofun, nofun, nofun⟩ nofun

private theorem wellFormed_exprs {tokens rest : List Token} {exprs : List Expr}
    (hexprs : Exprs tokens exprs rest) :
    ∀ spot ∈ forestSpots parentKind parent position first (Expr.branches exprs),
      spot.WellFormed := by
  induction hexprs generalizing parentKind parent position first with
  | nil rest => exact nofun
  | leaf leaf others ih => exact forall_forestSpots (wellFormed_leaf leaf) ih
  | enclosure inside others ihInside ihOthers =>
      refine forall_forestSpots (forall_spots ⟨?_, nofun, nofun, nofun⟩ ihInside) ihOthers
      exact Expr.isExpr_branches _

private theorem wellFormed_head {tokens rest : List Token} {condition : Condition}
    (hhead : Head tokens condition rest) :
    ∀ spot ∈ spots parentKind parent position id condition.branch, spot.WellFormed := by
  obtain ⟨inside⟩ := hhead
  refine forall_spots ⟨?_, nofun, nofun, nofun⟩ (wellFormed_exprs inside)
  exact Expr.isExpr_branches _

/-- A statement that is not empty, or that may be. -/
private theorem wellFormed_statement {tokens rest : List Token} {exprs : List Expr} {line : Nat}
    (hexprs : Exprs tokens exprs rest)
    (hempty : exprs = [] → parentKind.isConditional = true ∧ (position = 1 ∨ position = 2)) :
    ∀ spot ∈ spots parentKind parent position id (.node .statement line (Expr.branches exprs)),
      spot.WellFormed := by
  refine forall_spots ⟨Expr.isExpr_branches _, nofun, fun _ hnone => hempty ?_, nofun⟩
    (wellFormed_exprs hexprs)
  cases exprs with
  | nil => rfl
  | cons first rest => cases hnone

/-- Whether a phrase at a position below a parent is an alternate. -/
def AlternateAt (isAlternate : Bool) (parentKind : NodeKind) (position : Nat) : Prop :=
  isAlternate = true ↔ parentKind.isConditional = true ∧ position = 2

mutual

private theorem wellFormed_items : {tokens : List Token} → {phrases : List Phrase} →
    {rest : List Token} → (hitems : Items tokens phrases rest) → (parentKind : NodeKind) →
      (hparent : parentKind.isConditional = false) → (parent position first : Nat) →
        ∀ spot ∈ forestSpots parentKind parent position first (Phrase.branches phrases),
          spot.WellFormed
  | _, _, _, .nil rest, _, _, _, _, _ => nofun
  | _, _, _, .empty others, parentKind, hparent, parent, position, first =>
      wellFormed_items others parentKind hparent parent position first
  | _, _, _, .cons whole others, parentKind, hparent, parent, position, first => by
      have halternate : AlternateAt false parentKind position := by
        simp [AlternateAt, hparent]
      exact forall_forestSpots (wellFormed_item whole halternate parent first)
        (wellFormed_items others parentKind hparent parent (position + 1) _)

private theorem wellFormed_item : {tokens : List Token} → {phrase : Phrase} →
    {rest : List Token} → (hitem : Item tokens phrase rest) → {isAlternate : Bool} →
      {parentKind : NodeKind} → {position : Nat} →
        (halternate : AlternateAt isAlternate parentKind position) → (parent id : Nat) →
          ∀ spot ∈ spots parentKind parent position id (phrase.branch isAlternate),
            spot.WellFormed
  | _, _, _, .statement parts, _, _, _, _, _, _ => wellFormed_statement parts nofun
  | _, _, _, .block inside, _, _, _, _, _, id =>
      forall_spots ⟨Phrase.isPhrase_branches _, nofun, nofun, nofun⟩
        (wellFormed_items inside .block rfl id 0 (id + 1))
  | _, _, _, .conditional head slot, isAlternate, _, _, halternate, _, id => by
      have hbody : AlternateAt false (.conditional ⟨.bodyComplete, isAlternate⟩) 1 := by
        simp [AlternateAt]
      refine forall_spots ⟨?_, ?_, nofun, nofun⟩ (forall_forestSpots (wellFormed_head head)
        (forall_forestSpots (wellFormed_slot slot rfl (.inl rfl) hbody id _) nofun))
      · exact ⟨_, rfl, by simp, .inl ⟨rfl, rfl⟩⟩
      · rintro state hstate
        obtain rfl := NodeKind.conditional.inj hstate
        exact halternate
  | _, _, _, .alternative head slot hnearest word other, isAlternate, _, _, halternate, _, id => by
      have hbody : AlternateAt false (.conditional ⟨.complete, isAlternate⟩) 1 := by
        simp [AlternateAt]
      have hother : AlternateAt true (.conditional ⟨.complete, isAlternate⟩) 2 := by
        simp [AlternateAt, NodeKind.isConditional]
      refine forall_spots ⟨?_, ?_, nofun, nofun⟩ (forall_forestSpots (wellFormed_head head)
        (forall_forestSpots (wellFormed_slot slot rfl (.inl rfl) hbody id _)
          (forall_forestSpots (wellFormed_slot other rfl (.inr rfl) hother id _) nofun)))
      · exact ⟨_, rfl, by simp, .inr ⟨rfl, rfl⟩⟩
      · rintro state hstate
        obtain rfl := NodeKind.conditional.inj hstate
        exact halternate

private theorem wellFormed_slot : {tokens : List Token} → {phrase : Phrase} →
    {rest : List Token} → (hslot : Slot tokens phrase rest) → {isAlternate : Bool} →
      {parentKind : NodeKind} → {position : Nat} →
        (hparent : parentKind.isConditional = true) → (hposition : position = 1 ∨ position = 2) →
        (halternate : AlternateAt isAlternate parentKind position) → (parent id : Nat) →
          ∀ spot ∈ spots parentKind parent position id (phrase.branch isAlternate),
            spot.WellFormed
  | _, _, _, .empty text line rest, _, _, _, hparent, hposition, _, _, _ =>
      wellFormed_statement (.nil rest) fun _ => ⟨hparent, hposition⟩
  | _, _, _, .item whole, _, _, _, _, _, halternate, parent, id =>
      wellFormed_item whole halternate parent id
  | _, _, _, .beforeElse parts, _, _, _, _, _, _, _, _ => wellFormed_statement parts nofun

end

/-- The spots of a script that the grammar derives. -/
theorem Items.wellFormed_spots {tokens rest : List Token} {phrases : List Phrase}
    (hitems : Items tokens phrases rest) (line : Nat) :
    ∀ spot ∈ rootSpots (.node .script line (Phrase.branches phrases)), spot.WellFormed :=
  forall_spots ⟨Phrase.isPhrase_branches phrases, nofun, nofun, nofun⟩
    (wellFormed_items hitems .script rfl Script.root 0 (Script.root + 1))

end Grammar

/-! ## Scripts -/

/-- Every script that is read, from any lines and with any settings, has a well-formed
table. -/
theorem Parser.wellFormed_of_mem_results {lines : List String} {options : Options}
    {script : Script} (hscript : .ok script ∈ (ofLines lines options).results) :
    script.WellFormed := by
  obtain ⟨tokens, phrases, hitems, hphrases⟩ := Script.exists_items hscript
  rw [hphrases]
  exact (Script.lists_ofPhrases _ _ phrases).wellFormed rfl (hitems.wellFormed_spots _)

/-- An `ELSE IF` between two empty statements. -/
theorem Parser.wellFormed_of_mem_results_elseIf :
    let lines := ["SCRIPT A", "IF (X) ; ELSE IF (NOT Y) \x7bZ;\x7d ELSE ;"]
    let script := Script.ofPhrases "A" 1 [.alternative ⟨2, 2, [.value 2 "X"]⟩ (.statement 2 [])
      (.alternative ⟨2, 2, [.operator 2 "NOT", .value 2 "Y"]⟩
        (.block 2 [.statement 2 [.value 2 "Z"]]) (.statement 2 []))]
    .ok script ∈ (ofLines lines {}).results ∧ script.WellFormed := by
  intro lines script
  have hparsed : (ofLines lines {}).scripts.toOption = some [script] := by
    decide +kernel
  have hresults := (scripts_ok_iff _ _).mp (ok_of_toOption hparsed)
  have hmem : .ok script ∈ (ofLines lines {}).results := by
    rw [hresults]
    exact .head _
  exact ⟨hmem, wellFormed_of_mem_results hmem⟩

end SignalScript
