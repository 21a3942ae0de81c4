/- path: JsonScada/System/OneValue
   layer: system
   digest: When the three paths of the server say the same of a point. -/

import JsonScada.Iec104Server.Monitor

set_option autoImplicit false
set_option relaxedAutoImplicit false

namespace JsonScada.System.OneValue

open JsonScada.Lib.Binary64 JsonScada.Lib.DotNet JsonScada.Iec104.Types
open JsonScada.Iec104.Objects JsonScada.Iec104Server.Command JsonScada.Iec104Server.Monitor

/-- Whatever is sent of a destination says one thing, and what is sent spontaneously an
interrogation also sends. -/
structure OnePoint (srv : Server) (p : RtData) (dst : Destination) : Prop where
  value : ∀ path path' now now' o o', sent srv now p dst path = some o →
    sent srv now' p dst path' = some o' → said o = said o'
  monitored : ∀ now o, sent srv now p dst .spontaneous = some o →
    ∃ qoi o', sent srv now p dst (.interrogation qoi) = some o'

/-- The value as it is and the value with the factors, both cut to the range of the type,
round to one integer, and the first lies outside the range just when the second does or
the point is marked with an overflow. -/
def SameMeasured (low high : ℤ) (p : RtData) (dst : Destination) : Prop :=
  let plain := converted p.value (.fin 1) (.fin 0)
  let scaled := converted p.value dst.protocolDestinationKConv1 dst.protocolDestinationKConv2
  Convert.toInt16 (limit low high plain) = Convert.toInt16 (limit low high scaled) ∧
    outside low high plain = (p.overflow || outside low high scaled)

/-- The value that disregards the factors and the transient flag is the value with them. -/
def SameValue (p : RtData) (dst : Destination) : TypeID → Prop
  | .M_SP_NA_1 | .M_SP_TB_1 =>
    dst.protocolDestinationKConv1 ≠ .fin (-1) ∧ p.overflow = false
  | .M_DP_NA_1 | .M_DP_TB_1 =>
    (p.transient = false ∧ dst.protocolDestinationKConv1 ≠ .fin (-1)) ∧ p.overflow = false
  | .M_ST_NA_1 | .M_ST_TB_1 => p.transient = false ∧ SameMeasured (-64) 63 p dst
  | .M_ME_NA_1 | .M_ME_TD_1 | .M_ME_NB_1 | .M_ME_TE_1 => SameMeasured (-32768) 32767 p dst
  | .M_ME_NC_1 | .M_ME_TF_1 =>
    toSingle (converted p.value (.fin 1) (.fin 0)) =
        toSingle (converted p.value dst.protocolDestinationKConv1
          dst.protocolDestinationKConv2) ∧ p.overflow = false
  | _ => False

/-- A destination the change stream has an object for is the first one of the connection,
of a point that is no command, with an address in range; an overflowed or transient point
is also invalid; the value is the same with and without the factors; and the number of the
type, where it has a fraction, is not rounded to another type the read answers with. -/
def Plain (srv : Server) (p : RtData) (dst : Destination) : Prop :=
  let asdu := toInt32 dst.protocolDestinationASDU
  encodable (.ofCode asdu) p.value 0 (.fin 1) (.fin 0) = true →
    p.origin ≠ "command" ∧ ownDestination srv p = some dst ∧
      (Convert.toInt32 dst.protocolDestinationObjectAddress).isSome = true ∧
      (p.overflow = true ∨ p.transient = true → p.invalid = true) ∧
      SameValue p dst (.ofCode asdu) ∧
      ((Convert.toByte dst.protocolDestinationCommonAddress).isSome = true →
        ∀ rounded, Convert.toInt32 dst.protocolDestinationASDU = some rounded →
          encodable (.ofCode rounded) p.value 0 (.fin 1) (.fin 0) = true → rounded = asdu)

theorem reportedContent_isSome (p : RtData) (asdu : ℤ) :
    (reportedContent p asdu).join.isSome =
      encodable (.ofCode asdu) p.value 0 (.fin 1) (.fin 0) :=
  buildContent_isSome ..

/-- The two qualities are one when each says the same of the point; of a value cut to its
range the overflow flag is compared after the cut. -/
theorem quality_eq_iff (p : RtData) (out out' : Bool) :
    some ({ reportedQuality p with overflow := (reportedQuality p).overflow || out } :
        QualityDescriptor) =
      some { interrogatedQuality p with overflow := (interrogatedQuality p).overflow || out' } ↔
    (p.overflow = true ∨ p.transient = true → p.invalid = true) ∧
      out = (p.overflow || out') := by
  unfold reportedQuality interrogatedQuality
  cases p.invalid <;> cases p.overflow <;> cases p.transient <;> simp

theorem plainQuality_eq_iff (p : RtData) :
    some (reportedQuality p) = some (interrogatedQuality p) ↔
      (p.overflow = true ∨ p.transient = true → p.invalid = true) ∧ p.overflow = false := by
  have h := quality_eq_iff p false false
  simpa only [Bool.or_false, eq_comm] using h

theorem boolean_eq_iff (v k : Number) : boolean v (.fin 1) = boolean v k ↔ k ≠ .fin (-1) := by
  have hne : (Number.fin 1) ≠ .fin (-1) := by decide
  unfold boolean
  rw [if_neg hne]
  by_cases hk : k = .fin (-1)
  · rw [if_pos hk]
    cases v.eqv (.fin 0) <;> simp [hk]
  · rw [if_neg hk]
    simp [hk]

theorem doublePoint_eq_iff (v k : Number) (transient : Bool) :
    doublePoint v (.fin 1) false = doublePoint v k transient ↔
      transient = false ∧ k ≠ .fin (-1) := by
  rw [← boolean_eq_iff v k]
  unfold doublePoint
  cases transient <;> cases boolean v (.fin 1) <;> cases boolean v k <;> simp

/-- Without factors only what is no number converts to what is no number. -/
theorem converted_isNaN {v k1 k2 : Number} (h : (converted v (.fin 1) (.fin 0)).isNaN = true) :
    (converted v k1 k2).isNaN = true := by
  cases v with
  | nan => rfl
  | inf s => cases s <;> simp [converted, Number.mul, Number.add, Number.isNaN] at h
  | fin q =>
    exfalso
    have hn : (round binary64 (q * 1)).add (.fin 0) = .nan := of_decide_eq_true h
    cases hr : round binary64 (q * 1) with
    | nan => exact round_ne_nan _ _ hr
    | inf s =>
      rw [hr] at hn
      cases hn
    | fin r =>
      rw [hr] at hn
      exact round_ne_nan _ _ hn

/-- Two measured values are one: their numbers, what else they carry and their flags. -/
theorem measured_eq_iff {low high : ℤ} (hl : -32768 ≤ low) (hlh : low ≤ high)
    (hh : high ≤ 32767) {x y : Number} (hx : x.isNaN = false) (q q' : QualityDescriptor)
    {make make' : ℤ → Content} {P : Prop} (hmake : ∀ n n', make n = make' n' ↔ P ∧ n = n') :
    (measured low high x (some q) make).join = (measured low high y (some q') make').join ↔
      (P ∧ Convert.toInt16 (limit low high x) = Convert.toInt16 (limit low high y)) ∧
        some ({ q with overflow := q.overflow || outside low high x } : QualityDescriptor) =
          some { q' with overflow := q'.overflow || outside low high y } := by
  have hsome : (Convert.toInt16 (limit low high x)).isSome = true := by
    unfold Convert.toInt16
    rw [convert_limit hl hlh hh, hx]
    rfl
  obtain ⟨n, hn⟩ := Option.isSome_iff_exists.mp hsome
  rw [measured_some, measured_some, hn]
  cases hm : Convert.toInt16 (limit low high y) with
  | none => simp
  | some m =>
    simp only [Option.map_some, Option.join_some, Option.some.injEq, Prod.mk.injEq, hmake]

/-- The object of the change stream and that of the interrogation carry the same just
when the value and the flags are the same. -/
theorem reported_eq_interrogated_iff (p : RtData) (dst : Destination) {t : TypeID}
    (ht : interrogates t = true)
    (henc : encodable t p.value 0 (.fin 1) (.fin 0) = true) :
    (buildContent t p.value false 0 (some (reportedQuality p)) (.fin 1) (.fin 0) false).join =
        (buildContent t p.value false 0 (some (interrogatedQuality p))
          dst.protocolDestinationKConv1 dst.protocolDestinationKConv2 p.transient).join ↔
      (p.overflow = true ∨ p.transient = true → p.invalid = true) ∧ SameValue p dst t := by
  have hpair : ∀ (a b : Content) (P Q R : Prop) (q q' : Option QualityDescriptor),
      (a = b ↔ P) → (q = q' ↔ Q ∧ R) →
      ((some (some (a, q))).join = (some (some (b, q'))).join ↔ Q ∧ P ∧ R) := by
    intro a b P Q R q q' hab hq
    simp only [Option.join_some, Option.some.injEq, Prod.mk.injEq, hab, hq]
    tauto
  have hplain := plainQuality_eq_iff p
  have hcut := fun out out' => quality_eq_iff p out out'
  cases t with
  | M_SP_NA_1 | M_SP_TB_1 =>
    refine hpair _ _ _ _ _ _ _ ?_ hplain
    rw [Content.single.injEq]
    exact boolean_eq_iff ..
  | M_DP_NA_1 | M_DP_TB_1 =>
    refine hpair _ _ _ _ _ _ _ ?_ hplain
    rw [Content.double.injEq]
    exact doublePoint_eq_iff ..
  | M_ME_NC_1 | M_ME_TF_1 =>
    refine hpair _ _ _ _ _ _ _ ?_ hplain
    rw [Content.short.injEq]
  | M_ST_NA_1 | M_ST_TB_1 =>
    have hx : (converted p.value (.fin 1) (.fin 0)).isNaN = false := by
      simpa [encodable] using henc
    have hmake : ∀ n n', Content.step n false = .step n' p.transient ↔
        p.transient = false ∧ n = n' := by
      intro n n'
      rw [Content.step.injEq, and_comm, eq_comm (a := false)]
    refine (measured_eq_iff (by decide) (by decide) (by decide) hx _ _ hmake).trans ?_
    rw [hcut]
    unfold SameValue SameMeasured
    tauto
  | M_ME_NA_1 | M_ME_TD_1 | M_ME_NB_1 | M_ME_TE_1 =>
    have hx : (converted p.value (.fin 1) (.fin 0)).isNaN = false := by
      simpa [encodable] using henc
    refine (measured_eq_iff (P := True) le_rfl (by decide) le_rfl hx _ _ ?_).trans ?_
    · intro n n'
      simp
    rw [hcut]
    unfold SameValue SameMeasured
    tauto
  | _ => cases ht

/-- A value the interrogation can send, the change stream can send. -/
theorem encodable_of_interrogated {t : TypeID} (ht : interrogates t = true) {v k1 k2 : Number}
    (h : encodable t v 0 k1 k2 = true) : encodable t v 0 (.fin 1) (.fin 0) = true := by
  have hnan : (!(converted v k1 k2).isNaN) = true →
      (!(converted v (.fin 1) (.fin 0)).isNaN) = true := by
    intro h
    cases hn : (converted v (.fin 1) (.fin 0)).isNaN with
    | false => rfl
    | true =>
      rw [converted_isNaN hn] at h
      exact h
  cases t with
  | M_SP_NA_1 | M_SP_TB_1 | M_DP_NA_1 | M_DP_TB_1 | M_ME_NC_1 | M_ME_TF_1 => rfl
  | M_ST_NA_1 | M_ST_TB_1 | M_ME_NA_1 | M_ME_TD_1 | M_ME_NB_1 | M_ME_TE_1 => exact hnan h
  | _ => cases ht

theorem interrogated_join {p : RtData} {dst : Destination}
    {c : Content × Option QualityDescriptor} (h : interrogatedContent p dst = some (some c)) :
    interrogates (.ofCode (toInt32 dst.protocolDestinationASDU)) = true ∧
      (buildContent (.ofCode (toInt32 dst.protocolDestinationASDU)) p.value false 0
        (some (interrogatedQuality p)) dst.protocolDestinationKConv1
        dst.protocolDestinationKConv2 p.transient).join = some c := by
  rw [interrogatedContent_eq] at h
  split at h
  case isTrue ht => exact ⟨ht, by rw [h]; rfl⟩
  case isFalse => cases h

/-- Cutting the fraction off and rounding give the same number or neighbours. -/
theorem rounded_near {d : Number} {n : ℤ} (h : Convert.toInt32 d = some n)
    (hne : toInt32 d ≠ -2 ^ 31) :
    n = toInt32 d ∨ n = toInt32 d + 1 ∨ n = toInt32 d - 1 := by
  cases d with
  | nan | inf => cases h
  | fin q =>
    have hn : nearestEven q = n := by
      obtain ⟨r, hr, hn, -⟩ := convert_eq_some h
      rw [hn, Number.fin.inj hr]
    have hlow := floor_le_nearestEven q
    have hhigh := nearestEven_le_floor_add_one q
    have hneg : -⌊-q⌋ = ⌈q⌉ := by rw [Int.floor_neg, neg_neg]
    have hceil : ⌊q⌋ ≤ ⌈q⌉ ∧ ⌈q⌉ ≤ ⌊q⌋ + 1 := ⟨Int.floor_le_ceil q, Int.ceil_le_floor_add_one q⟩
    unfold toInt32 at hne ⊢
    dsimp only at hne ⊢
    rw [hneg] at hne ⊢
    split_ifs at hne ⊢ <;> omega

/-- Neighbouring types carry different contents. -/
theorem neighbour_differs {n m : ℤ} (hn : interrogates (.ofCode n) = true)
    (hm : m = n + 1 ∨ m = n - 1) :
    withoutTime (.ofCode m) ≠ withoutTime (.ofCode n) := by
  have hcode := TypeID.code_ofCode n
  generalize TypeID.ofCode n = t at hn hcode ⊢
  cases t with
  | M_SP_NA_1 | M_SP_TB_1 | M_DP_NA_1 | M_DP_TB_1 | M_ST_NA_1 | M_ST_TB_1 | M_ME_NA_1
  | M_ME_TD_1 | M_ME_NB_1 | M_ME_TE_1 | M_ME_NC_1 | M_ME_TF_1 =>
    subst hcode
    rcases hm with rfl | rfl <;> decide
  | _ => cases hn

theorem interrogates_of_sameValue {p : RtData} {dst : Destination} {t : TypeID}
    (h : SameValue p dst t) : interrogates t = true := by
  cases t with
  | M_SP_NA_1 | M_SP_TB_1 | M_DP_NA_1 | M_DP_TB_1 | M_ST_NA_1 | M_ST_TB_1 | M_ME_NA_1
  | M_ME_TD_1 | M_ME_NB_1 | M_ME_TE_1 | M_ME_NC_1 | M_ME_TF_1 => rfl
  | _ => exact h.elim

theorem reportedContent_type {p : RtData} {asdu : ℤ} {c : Content × Option QualityDescriptor}
    (h : (reportedContent p asdu).join = some c) : c.1.type = withoutTime (.ofCode asdu) :=
  buildContent_type (Option.join_eq_some_iff.mp h)

/-- Under the condition whatever is sent of a destination is what the change stream says;
a destination it says nothing of is at most read. -/
theorem said_of_plain {srv : Server} {p : RtData} {dst : Destination} (h : Plain srv p dst) :
    ∃ c, ∀ path now o, sent srv now p dst path = some o → some (said o) = c := by
  let asdu := toInt32 dst.protocolDestinationASDU
  have hreported := reportedContent_isSome p asdu
  cases henc : encodable (.ofCode asdu) p.value 0 (.fin 1) (.fin 0) with
  | true =>
    obtain ⟨-, -, -, hflags, hsame, hround⟩ := h henc
    refine ⟨(reportedContent p asdu).join, fun path now o ho => ?_⟩
    cases path with
    | spontaneous => exact (spontaneous_carries ho).symm
    | interrogation qoi =>
      obtain ⟨-, -, -, hcontent⟩ := interrogation_carries ho
      obtain ⟨ht, hjoin⟩ := interrogated_join hcontent
      rw [← hjoin]
      exact ((reported_eq_interrogated_iff p dst ht henc).mpr ⟨hflags, hsame⟩).symm
    | read =>
      obtain ⟨-, hoa, -, rounded, hrounded, hjoin⟩ := read_carries ho
      have henc' : encodable (.ofCode rounded) p.value 0 (.fin 1) (.fin 0) = true := by
        rw [← reportedContent_isSome, hjoin]
        rfl
      have heq := hround hoa rounded hrounded henc'
      rw [← hjoin, heq]
  | false =>
    rw [henc] at hreported
    refine ⟨(Convert.toInt32 dst.protocolDestinationASDU).bind fun rounded =>
      (reportedContent p rounded).join, fun path now o ho => ?_⟩
    cases path with
    | spontaneous =>
      rw [spontaneous_carries ho] at hreported
      cases hreported
    | interrogation qoi =>
      obtain ⟨-, -, -, hcontent⟩ := interrogation_carries ho
      obtain ⟨ht, hjoin⟩ := interrogated_join hcontent
      have hsome := buildContent_isSome (.ofCode asdu) p.value false 0 (interrogatedQuality p)
        dst.protocolDestinationKConv1 dst.protocolDestinationKConv2 p.transient
      rw [hjoin] at hsome
      rw [encodable_of_interrogated ht hsome.symm] at henc
      cases henc
    | read =>
      obtain ⟨-, -, -, rounded, hrounded, hjoin⟩ := read_carries ho
      rw [hrounded]
      exact hjoin.symm

/-- Of a destination the three paths say one thing, and the change stream nothing an
interrogation would not send, just when the destination is a plain one. -/
theorem one_point_iff (srv : Server) (p : RtData) (dst : Destination)
    (hd : dst ∈ p.protocolDestinations)
    (hc : dst.protocolDestinationConnectionNumber = .fin srv.protocolConnectionNumber) :
    OnePoint srv p dst ↔ Plain srv p dst := by
  constructor
  · intro h henc
    let asdu := toInt32 dst.protocolDestinationASDU
    have hsome := reportedContent_isSome p asdu
    rw [henc] at hsome
    obtain ⟨c, hjoin⟩ := Option.isSome_iff_exists.mp hsome
    obtain ⟨o, ho, hsaid⟩ := @spontaneous_sends srv 0 p dst hd hc c hjoin
    obtain ⟨qoi, o', ho'⟩ := h.monitored 0 o ho
    obtain ⟨horigin, hown, haddr, hcontent⟩ := interrogation_carries ho'
    obtain ⟨ht, hjoin'⟩ := interrogated_join hcontent
    have hone : said o = said o' := h.value _ _ _ _ _ _ ho ho'
    have heq : (reportedContent p asdu).join = some (said o') := by rw [hjoin, ← hsaid, hone]
    obtain ⟨hflags, hsame⟩ :=
      (reported_eq_interrogated_iff p dst ht henc).mp (heq.trans hjoin'.symm)
    refine ⟨horigin, hown, haddr, hflags, hsame, ?_⟩
    intro hoa rounded hrounded henc'
    have hsome' := reportedContent_isSome p rounded
    rw [henc'] at hsome'
    obtain ⟨c', hread⟩ := Option.isSome_iff_exists.mp hsome'
    obtain ⟨o'', ho'', hsaid'⟩ := @read_sends srv 0 p dst hown hoa haddr rounded hrounded c' hread
    have hone' : said o = said o'' := h.value _ _ _ _ _ _ ho ho''
    have htype : withoutTime (.ofCode rounded) = withoutTime (.ofCode asdu) := by
      rw [← reportedContent_type hread, ← reportedContent_type hjoin, ← hsaid, hone', hsaid']
    have hne : asdu ≠ -2 ^ 31 := by
      intro hlow
      have hnone : interrogates (.ofCode asdu) = false := by
        rw [hlow]
        decide
      rw [hnone] at ht
      cases ht
    by_contra hdiff
    have hnear := (rounded_near hrounded hne).resolve_left hdiff
    exact neighbour_differs ht hnear htype
  · intro h
    constructor
    · intro path path' now now' o o' ho ho'
      obtain ⟨c, hsaid⟩ := said_of_plain h
      exact Option.some.inj ((hsaid _ _ _ ho).trans (hsaid _ _ _ ho').symm)
    · intro now o ho
      have hjoin := spontaneous_carries ho
      have henc := reportedContent_isSome p (toInt32 dst.protocolDestinationASDU)
      rw [hjoin] at henc
      obtain ⟨horigin, hown, haddr, hflags, hsame, -⟩ := h henc.symm
      have ht := interrogates_of_sameValue hsame
      have heq := (reported_eq_interrogated_iff p dst ht henc.symm).mpr ⟨hflags, hsame⟩
      have hcontent : interrogatedContent p dst = some (some (said o)) := by
        rw [interrogatedContent_eq, if_pos ht]
        exact Option.join_eq_some_iff.mp (heq.symm.trans hjoin)
      obtain ⟨qoi, o', ho', -⟩ := @interrogation_sends srv now p dst horigin hown haddr _ hcontent
      exact ⟨qoi, o', ho'⟩

/-- A single point the connection inverts, and a measured value in its own unit. -/
def inverted : Destination where
  protocolDestinationConnectionNumber := .fin 2001
  protocolDestinationCommonAddress := .fin 1
  protocolDestinationObjectAddress := .fin 101
  protocolDestinationASDU := .fin 30
  protocolDestinationKConv1 := .fin (-1)

def direct : Destination := { inverted with
  protocolDestinationASDU := .fin 13, protocolDestinationKConv1 := .fin 1 }

theorem one_point_iff_direct :
    OnePoint { protocolConnectionNumber := 2001 }
      { _id := 1, value := .fin 5, protocolDestinations := [direct] } direct ↔
    Plain { protocolConnectionNumber := 2001 }
      { _id := 1, value := .fin 5, protocolDestinations := [direct] } direct :=
  one_point_iff _ _ _ (by decide) (by decide)

/-- An inverted single point is sent as it is by the change stream, and inverted by the
interrogation. -/
theorem inverted_differs :
    ¬ ∀ srv p dst, dst ∈ p.protocolDestinations →
      dst.protocolDestinationConnectionNumber = .fin srv.protocolConnectionNumber →
      OnePoint srv p dst := by
  intro h
  let srv : Server := { protocolConnectionNumber := 2001 }
  let p : RtData := { _id := 1, value := .fin 1, protocolDestinations := [inverted] }
  obtain ⟨o, ho⟩ : ∃ o, sent srv 0 p inverted .spontaneous = some o :=
    Option.isSome_iff_exists.mp (by decide +kernel)
  obtain ⟨o', ho'⟩ : ∃ o', sent srv 0 p inverted (.interrogation 20) = some o' :=
    Option.isSome_iff_exists.mp (by decide +kernel)
  have hone : said o = said o' :=
    (h srv p inverted (by decide) (by decide)).value _ _ _ _ _ _ ho ho'
  have hdiff : (sent srv 0 p inverted .spontaneous).map said ≠
      (sent srv 0 p inverted (.interrogation 20)).map said := by
    decide +kernel
  rw [ho, ho'] at hdiff
  exact hdiff (congrArg some hone)

end JsonScada.System.OneValue
