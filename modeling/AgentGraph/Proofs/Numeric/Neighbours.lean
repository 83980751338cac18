import AgentGraph.Proofs.Numeric.Shortest
import Mathlib.Tactic.LinearCombination

/-!
# Short decimals near short binary numbers

A decimal of at most seven or eight digits is not near a number of 25 binary digits, unless they are
equal or this is one of two exceptions (`eq_of_near_power`). That is a question about fractions near
`10 ^ k / 2 ^ r`. For each of the powers that 32-bit numbers need it is answered by a chain of
fractions around that number in which neighbours are so close to each other that every fraction
between them has a great numerator and a great denominator.
-/

namespace AgentGraph.Numeric

/-! ### Adjacent fractions -/

/-- The denominators that are asked for are below this. -/
def denominatorBound : Nat := 17000000

/-- The numerators that are asked for are below this. -/
def numeratorBound : Nat := 2 ^ 25

/-- Nothing that is asked for lies between the fractions. -/
def Adjacent (f g : Nat × Nat) : Prop :=
  g.1 * f.2 = f.1 * g.2 + 1 ∧ numeratorBound ≤ f.1 + g.1 ∧ denominatorBound ≤ f.2 + g.2

instance (f g : Nat × Nat) : Decidable (Adjacent f g) := inferInstanceAs (Decidable (_ ∧ _))

/-- What lies between adjacent fractions is made of both. -/
theorem Adjacent.le_of_between {f g : Nat × Nat} (h : Adjacent f g) {n d : Nat}
    (hlow : f.1 * d < n * f.2) (hhigh : n * g.2 < g.1 * d) :
    numeratorBound ≤ n ∧ denominatorBound ≤ d := by
  obtain ⟨hdet, hnumerator, hdenominator⟩ := h
  obtain ⟨below, hbelow⟩ := Nat.exists_eq_add_of_lt hlow
  obtain ⟨above, habove⟩ := Nat.exists_eq_add_of_lt hhigh
  -- by the determinant the fraction is a combination of its neighbours with positive weights
  have hn : n = (above + 1) * f.1 + (below + 1) * g.1 := by
    zify at *
    linear_combination g.1 * hbelow + f.1 * habove - n * hdet
  have hd : d = (above + 1) * f.2 + (below + 1) * g.2 := by
    zify at *
    linear_combination g.2 * hbelow + f.2 * habove - d * hdet
  constructor
  · nlinarith
  · nlinarith

theorem exists_eq_of_isChain {f last : Nat × Nat} {inner : List (Nat × Nat)}
    (h : (f :: (inner ++ [last])).IsChain Adjacent) {n d : Nat}
    (hsmall : n < numeratorBound ∨ d < denominatorBound) (hlow : f.1 * d < n * f.2)
    (hhigh : n * last.2 < last.1 * d) :
    ∃ g ∈ inner, n * g.2 = g.1 * d := by
  induction inner generalizing f with
  | nil =>
      have := (List.isChain_pair.mp h).le_of_between hlow hhigh
      omega
  | cons g inner ih =>
      rw [List.cons_append, List.isChain_cons_cons] at h
      obtain ⟨hadjacent, hrest⟩ := h
      -- it lies before the next fraction, is equal to it, or lies behind it
      rcases lt_trichotomy (n * g.2) (g.1 * d) with hlt | heq | hgt
      · have := hadjacent.le_of_between hlow hlt
        omega
      · exact ⟨g, List.mem_cons_self .., heq⟩
      · obtain ⟨g', hg', heq⟩ := ih hrest hgt
        exact ⟨g', List.mem_cons_of_mem _ hg', heq⟩

/-! ### The powers of ten -/

/-- A chain of fractions around a power of ten, divided by `2 ^ shift`. -/
structure Chain where
  shift : Int
  low : Nat × Nat
  inner : List (Nat × Nat)
  high : Nat × Nat

/-- The numerator and the denominator of `10 ^ k / 2 ^ shift`. -/
def power (k shift : Int) : Nat × Nat :=
  let (num, den) := Shortest.inUnits 1 1 (-k)
  scale num den (-shift)

theorem power_den_pos (k shift : Int) : 0 < (power k shift).2 :=
  scale_den_pos (Shortest.inUnits_den_pos Nat.one_pos _ _) _ _

theorem power_ratio (k shift : Int) :
    ((power k shift).1 / (power k shift).2 : ℚ) = 10 ^ k * 2 ^ (-shift) := by
  unfold power
  dsimp only
  rw [scale_ratio, Shortest.inUnits_ratio]
  norm_num

/-- The only decimals that are very near a short binary number without being equal to it have this
denominator. -/
def exception : Nat × Nat := (22841339, 7038531)

/-- The chain reaches around `10 ^ k`, and what it has near is equal to that or the exception. -/
def Chain.Encloses (c : Chain) (k : Int) : Prop :=
  (c.low :: (c.inner ++ [c.high])).IsChain Adjacent ∧
  c.low.1 * (power k c.shift).2 * 2 ^ 53 < (2 ^ 53 - 3) * (power k c.shift).1 * c.low.2 ∧
  (2 ^ 53 + 3) * (power k c.shift).1 * c.high.2 < c.high.1 * (power k c.shift).2 * 2 ^ 53 ∧
  ∀ g ∈ c.inner, k.natAbs ≤ 11 ∧ 0 < g.2 ∧ g.1 * (power k c.shift).2 = (power k c.shift).1 * g.2 ∨
    k = -32 ∧ g = exception

instance (c : Chain) (k : Int) : Decidable (c.Encloses k) := inferInstanceAs (Decidable (_ ∧ _))

/-- The chains for the powers from `10 ^ -54` to `10 ^ 39`. -/
def chains : List Chain :=
  [
    ⟨-181, (46571479, 15194654), [], (6483440, 2115321)⟩,
    ⟨-178, (53054919, 13847980), [], (61159219, 15963301)⟩,
    ⟨-174, (21462272, 8963063), [], (31592647, 13193705)⟩,
    ⟨-171, (26827840, 8963063), [], (31592647, 10554964)⟩,
    ⟨-168, (51713527, 13821809), [], (18178727, 4858746)⟩,
    ⟨-164, (20959250, 8963063), [], (34946127, 14944444)⟩,
    ⟨-161, (40164874, 13740961), [], (12233251, 4185165)⟩,
    ⟨-158, (56322718, 15415027), [], (12233251, 3348132)⟩,
    ⟨-154, (24179332, 10588269), [], (28448529, 12457775)⟩,
    ⟨-151, (30224165, 10588269), [], (28448529, 9966220)⟩,
    ⟨-148, (59116603, 16568001), [], (28448529, 7972976)⟩,
    ⟨-144, (15334037, 6876020), [], (31727152, 14226947)⟩,
    ⟨-141, (15334037, 5500816), [], (39658940, 14226947)⟩,
    ⟨-138, (45078242, 12936821), [], (49573675, 14226947)⟩,
    ⟨-134, (22554610, 10356569), [], (18028199, 8278143)⟩,
    ⟨-131, (14652752, 5382571), [], (46182739, 16964859)⟩,
    ⟨-128, (18315940, 5382571), [], (42519551, 12495373)⟩,
    ⟨-124, (22894925, 10765142), [], (28128253, 13225841)⟩,
    ⟨-121, (20278261, 7627834), [], (26819921, 10088533)⟩,
    ⟨-118, (21913676, 6594407), [], (52004427, 15649513)⟩,
    ⟨-114, (27392095, 13188814), [], (23263004, 11200729)⟩,
    ⟨-111, (33207846, 12791197), [], (29078755, 11200729)⟩,
    ⟨-108, (37336937, 11505332), [(22841339, 7038531)], (54028419, 16648792)⟩,
    ⟨-104, (11146184, 5495493), [], (30638109, 15105754)⟩,
    ⟨-100, (6966365, 5495493), [], (32031382, 25268305)⟩,
    ⟨-98, (50847516, 16044647), [], (16015691, 5053661)⟩,
    ⟨-94, (27075664, 13669717), [], (17667597, 8919857)⟩,
    ⟨-91, (33844580, 13669717), [], (24436513, 9869829)⟩,
    ⟨-87, (473461, 305967), [], (33309966, 21526061)⟩,
    ⟨-84, (10931527, 5651467), [], (30427276, 15730533)⟩,
    ⟨-81, (3324708, 1375067), [], (38034095, 15730533)⟩,
    ⟨-77, (22757344, 15059547), [], (18601459, 12309413)⟩,
    ⟨-74, (28446680, 15059547), [], (12912123, 6835621)⟩,
    ⟨-70, (17779175, 15059547), [], (16467958, 13948903)⟩,
    ⟨-67, (30785752, 20861237), [], (3461381, 2345523)⟩,
    ⟨-64, (4235057, 2295829), [], (30012076, 16269579)⟩,
    ⟨-61, (11738076, 5090579), [], (37515095, 16269579)⟩,
    ⟨-58, (14672595, 5090579), [], (40449614, 14033779)⟩,
    ⟨-55, (49569997, 13758438), [], (37673508, 10456499)⟩,
    ⟨-51, (10657433, 4732851), [], (36434452, 16180147)⟩,
    ⟨-48, (30423479, 10808591), [], (37983272, 13494369)⟩,
    ⟨-45, (20927661, 5947999), [], (47479090, 13494369)⟩,
    ⟨-41, (23036574, 10475821), [], (26551429, 12074192)⟩,
    ⟨-38, (38556577, 14026801), [], (19034858, 6924841)⟩,
    ⟨-35, (53076151, 15447193), [(33554432, 9765625)], (47587145, 13849682)⟩,
    ⟨-31, (34694035, 16155669), [(4194304, 1953125)], (32414829, 15094331)⟩,
    ⟨-28, (45543903, 16966426), [(1048576, 390625)], (44633633, 16627324)⟩,
    ⟨-25, (56801627, 16928204), [(262144, 78125)], (56968869, 16978046)⟩,
    ⟨-21, (35626695, 16988132), [(32768, 15625)], (35643705, 16996243)⟩,
    ⟨-18, (44562915, 16999403), [(8192, 3125)], (44557853, 16997472)⟩,
    ⟨-15, (55703919, 16999487), [(2048, 625)], (55705233, 16999888)⟩,
    ⟨-11, (34815787, 16999896), [(256, 125)], (34815957, 16999979)⟩,
    ⟨-8, (43519959, 16999984), [(64, 25)], (43519977, 16999991)⟩,
    ⟨-5, (54399987, 16999996), [(16, 5)], (54399997, 16999999)⟩,
    ⟨-1, (33999997, 16999999), [(2, 1)], (33999999, 16999999)⟩,
    ⟨2, (42499997, 16999999), [(5, 2)], (42499998, 16999999)⟩,
    ⟨5, (53124978, 16999993), [(25, 8)], (53124997, 16999999)⟩,
    ⟨8, (66406207, 16999989), [(125, 32)], (66406168, 16999979)⟩,
    ⟨12, (41503479, 16999825), [(625, 256)], (41503396, 16999791)⟩,
    ⟨15, (51879776, 16999965), [(3125, 1024)], (51879599, 16999907)⟩,
    ⟨18, (64844944, 16998713), [(15625, 4096)], (64842556, 16998087)⟩,
    ⟨22, (40511868, 16991909), [(78125, 32768)], (40503757, 16988507)⟩,
    ⟨25, (50596717, 16977441), [(390625, 131072)], (50575158, 16970207)⟩,
    ⟨28, (62160898, 16686189), [(1953125, 524288)], (62839102, 16868243)⟩,
    ⟨32, (32672456, 14032713), [(9765625, 4194304)], (35686919, 15327415)⟩,
    ⟨35, (27699364, 9517429), [(48828125, 16777216)], (21128761, 7259787)⟩,
    ⟨38, (34624205, 9517429), [], (41903284, 11518287)⟩,
    ⟨42, (1598371, 702971), [], (37993766, 16709835)⟩,
    ⟨45, (13494369, 4747909), [], (45985621, 16179752)⟩,
    ⟨48, (32360294, 9108613), [], (35111551, 9883023)⟩,
    ⟨52, (20912998, 9418377), [], (23664255, 10657433)⟩,
    ⟨55, (3852621, 1388053), [], (44577253, 16060648)⟩,
    ⟨58, (49806579, 14355769), [], (10181158, 2934519)⟩,
    ⟨62, (16269579, 7503019), [], (25452895, 11738076)⟩,
    ⟨65, (30243329, 11157819), [], (20861237, 7696438)⟩,
    ⟨68, (27897806, 8233979), [], (44067997, 13006577)⟩,
    ⟨72, (27342484, 12912123), [], (15059547, 7111670)⟩,
    ⟨75, (34178105, 12912123), [], (15059547, 5689336)⟩,
    ⟨78, (56046797, 16939105), [], (2750134, 831177)⟩,
    ⟨82, (15730533, 7606819), [], (22605868, 10931527)⟩,
    ⟨85, (25809599, 9984605), [], (27033467, 10458066)⟩,
    ⟨88, (53149033, 16448829), [], (27339434, 8461145)⟩,
    ⟨92, (22009711, 10898681), [], (13669717, 6768916)⟩,
    ⟨95, (40429288, 16015691), [], (36259291, 14363785)⟩,
    ⟨98, (50536610, 16015691), [], (36259291, 11491028)⟩,
    ⟨101, (65891102, 16705379), [], (5495493, 1393273)⟩,
    ⟨105, (9610261, 3898385), [], (37087726, 15044569)⟩,
    ⟨108, (9610261, 3118708), [], (51164788, 16603923)⟩,
    ⟨111, (22401458, 5815751), [], (63955985, 16603923)⟩,
    ⟨115, (29626017, 12306166), [], (13188814, 5478419)⟩,
    ⟨119, (2460699, 1635415), [], (32972035, 21913676)⟩,
    ⟨121, (2460699, 654166), [], (61514146, 16353265)⟩,
    ⟨125, (33833779, 14391298), [], (10765142, 4578985)⟩,
    ⟨128, (49597736, 16877235), [], (5382571, 1831594)⟩
  ]

theorem encloses_chains :
    ∀ place : Fin 94, ∃ c ∈ chains[place.val]?, c.Encloses (place.val - 54) := by
  decide +kernel

theorem exists_encloses {k : Int} (hlow : -54 ≤ k) (hhigh : k ≤ 39) :
    ∃ c : Chain, c.Encloses k := by
  obtain ⟨c, -, hc⟩ := encloses_chains ⟨(k + 54).toNat, by omega⟩
  refine ⟨c, ?_⟩
  have hk : (((k + 54).toNat : Nat) : Int) - 54 = k := by omega
  rwa [hk] at hc

/-- `n / d` is within three parts in `2 ^ 53` of `num / den`. -/
def Close (num den n d : Nat) : Prop :=
  (2 ^ 53 - 3) * num * d ≤ 2 ^ 53 * (n * den) ∧ 2 ^ 53 * (n * den) ≤ (2 ^ 53 + 3) * num * d

theorem close_iff {num den n d : Nat} (hden : 0 < den) (hd : 0 < d) :
    Close num den n d ↔ |(n / d - num / den : ℚ)| ≤ 3 / 2 ^ 53 * (num / den) := by
  have hden' : (0 : ℚ) < den := by exact_mod_cast hden
  have hd' : (0 : ℚ) < d := by exact_mod_cast hd
  have hbound : 3 / 2 ^ 53 * (num / den) * (d * den) = (3 / 2 ^ 53 * (num * d) : ℚ) := by field_simp
  rw [Close, div_sub_div _ _ hd'.ne' hden'.ne', abs_div, abs_of_pos (mul_pos hd' hden'),
    div_le_iff₀ (mul_pos hd' hden'), hbound, abs_le, ← Nat.cast_le (α := ℚ), ← Nat.cast_le (α := ℚ)]
  push_cast
  constructor
  · rintro ⟨hlow, hhigh⟩
    constructor <;> linarith
  · rintro ⟨hlow, hhigh⟩
    constructor <;> linarith

/-- What is close to the power of ten is on the chain. -/
theorem Chain.Encloses.exists_eq {c : Chain} {k : Int} (h : c.Encloses k) {n d : Nat} (hpos : 0 < d)
    (hsmall : n < numeratorBound ∨ d < denominatorBound)
    (hclose : Close (power k c.shift).1 (power k c.shift).2 n d) :
    ∃ g ∈ c.inner, n * g.2 = g.1 * d := by
  obtain ⟨hchain, hlow, hhigh, -⟩ := h
  have hden := power_den_pos k c.shift
  generalize (power k c.shift).1 = num at *
  generalize (power k c.shift).2 = den at *
  obtain ⟨hcloseLow, hcloseHigh⟩ := hclose
  refine exists_eq_of_isChain hchain hsmall ?_ ?_
  -- the low end of the chain is below the range of what is close, and the high end above it
  · refine Nat.lt_of_mul_lt_mul_left (a := den * 2 ^ 53) ?_
    calc den * 2 ^ 53 * (c.low.1 * d) = c.low.1 * den * 2 ^ 53 * d := by ring
      _ < (2 ^ 53 - 3) * num * c.low.2 * d := Nat.mul_lt_mul_of_pos_right hlow hpos
      _ = (2 ^ 53 - 3) * num * d * c.low.2 := by ring
      _ ≤ 2 ^ 53 * (n * den) * c.low.2 := Nat.mul_le_mul_right _ hcloseLow
      _ = den * 2 ^ 53 * (n * c.low.2) := by ring
  · refine Nat.lt_of_mul_lt_mul_left (a := den * 2 ^ 53) ?_
    calc den * 2 ^ 53 * (n * c.high.2) = 2 ^ 53 * (n * den) * c.high.2 := by ring
      _ ≤ (2 ^ 53 + 3) * num * d * c.high.2 := Nat.mul_le_mul_right _ hcloseHigh
      _ = (2 ^ 53 + 3) * num * c.high.2 * d := by ring
      _ < c.high.1 * den * 2 ^ 53 * d := Nat.mul_lt_mul_of_pos_right hhigh hpos
      _ = den * 2 ^ 53 * (c.high.1 * d) := by ring

/-! ### Decimals -/

/-- Scaling leaves the denominator as it is, or it leaves the numerator and puts twos to the
denominator. -/
theorem scale_cases (num den : Nat) (e : Int) : (scale num den e).2 = den ∨
    (scale num den e).1 = num ∧ ∃ i, (scale num den e).2 = den * 2 ^ i := by
  unfold scale
  split
  · exact .inl rfl
  · exact .inr ⟨rfl, _, rfl⟩

section

variable {n d : Nat} {r k : Int}

/-! A number `n * 2 ^ r` and a decimal `d * 10 ^ k` are both divided by `d` and by the unit of a
chain. -/

theorem scale_sub_ratio (n d : Nat) (r shift : Int) :
    ((scale n d (r - shift)).1 / (scale n d (r - shift)).2 : ℚ) = n * 2 ^ r *
    (2 ^ (-shift) / d) := by
  rw [scale_ratio, zpow_sub₀ two_ne_zero, zpow_neg]
  field_simp

theorem power_ratio_mul (hd : 0 < d) (k shift : Int) :
    ((power k shift).1 / (power k shift).2 : ℚ) = d * 10 ^ k * (2 ^ (-shift) / d) := by
  have hd' : (0 : ℚ) < d := by exact_mod_cast hd
  rw [power_ratio]
  field_simp

theorem close_of_near (hd : 0 < d)
    (hnear : |(n * 2 ^ r - d * 10 ^ k : ℚ)| ≤ 3 / 2 ^ 53 * (d * 10 ^ k)) (shift : Int) :
    Close (power k shift).1 (power k shift).2 (scale n d (r - shift)).1
    (scale n d (r - shift)).2 := by
  have hd' : (0 : ℚ) < d := by exact_mod_cast hd
  have hfactor : (0 : ℚ) < 2 ^ (-shift) / d := by positivity
  rw [close_iff (power_den_pos _ _) (scale_den_pos hd _ _), scale_sub_ratio, power_ratio_mul hd,
    ← sub_mul, abs_mul, abs_of_pos hfactor, ← mul_assoc]
  gcongr

theorem eq_of_scale_eq (hd : 0 < d) {shift : Int}
      (heq : (scale n d (r - shift)).1 * (power k shift).2 =
        (power k shift).1 * (scale n d (r - shift)).2) : (n * 2 ^ r : ℚ) = d * 10 ^ k := by
  have hd' : (0 : ℚ) < d := by exact_mod_cast hd
  have hfactor : (0 : ℚ) < 2 ^ (-shift) / d := by positivity
  have hratio : ((scale n d (r - shift)).1 / (scale n d (r - shift)).2 : ℚ) =
      (power k shift).1 / (power k shift).2 := by
    rw [div_eq_div_iff (by exact_mod_cast (scale_den_pos hd _ _).ne')
      (by exact_mod_cast (power_den_pos _ _).ne')]
    exact_mod_cast heq
  rw [scale_sub_ratio, power_ratio_mul hd] at hratio
  exact mul_right_cancel₀ hfactor.ne' hratio

/-- A fraction that is the exception has its denominator, up to twos. -/
theorem dvd_of_eq_exception {e : Int}
    (heq : (scale n d e).1 * exception.2 = exception.1 * (scale n d e).2) : exception.2 ∣ d := by
  have hcoprime : Nat.Coprime exception.2 exception.1 := by decide
  have hdvd : exception.2 ∣ (scale n d e).2 :=
    hcoprime.dvd_of_dvd_mul_left ⟨_, heq.symm.trans (Nat.mul_comm _ _)⟩
  rcases scale_cases n d e with hden | ⟨-, i, hden⟩
  · rwa [hden] at hdvd
  · rw [hden] at hdvd
    exact
      (Nat.Coprime.pow_right i (by decide : Nat.Coprime exception.2 2)).dvd_of_dvd_mul_right hdvd

/-- **A short decimal that is near a short binary number is equal to it**, with two exceptions. -/
theorem eq_of_near_power (hleast : -54 ≤ k) (hgreatest : k ≤ 39) (hn : n < 2 ^ 25)
    (hd : d < 17000000) (hpos : 0 < d)
    (hnear : |(n * 2 ^ r - d * 10 ^ k : ℚ)| ≤ 3 / 2 ^ 53 * (d * 10 ^ k)) :
    k.natAbs ≤ 11 ∧ (n * 2 ^ r : ℚ) = d * 10 ^ k ∨ k = -32 ∧ (d = 7038531 ∨ d = 14077062) := by
  obtain ⟨c, hc⟩ := exists_encloses hleast hgreatest
  -- scaled by a power of two, one of numerator and denominator stays small
  have hsmall : (scale n d (r - c.shift)).1 < numeratorBound ∨
      (scale n d (r - c.shift)).2 < denominatorBound := by
    rcases scale_cases n d (r - c.shift) with hden | ⟨hnum, -⟩
    · exact .inr (hden.trans_lt hd)
    · exact .inl (hnum.trans_lt hn)
  obtain ⟨g, hg, heq⟩ :=
    hc.exists_eq (scale_den_pos hpos _ _) hsmall (close_of_near hpos hnear c.shift)
  obtain ⟨-, -, -, hinner⟩ := hc
  rcases hinner g hg with ⟨hk, hg', hexact⟩ | ⟨rfl, rfl⟩
  · -- both fractions are equal to the one of the chain
    have hcross : (scale n d (r - c.shift)).1 * (power k c.shift).2 =
        (power k c.shift).1 * (scale n d (r - c.shift)).2 := by
      refine Nat.eq_of_mul_eq_mul_left hg' ?_
      linear_combination (power k c.shift).2 * heq + (scale n d (r - c.shift)).2 * hexact
    exact .inl ⟨hk, eq_of_scale_eq hpos hcross⟩
  -- the exception is a fraction near `10 ^ -32`, and its denominator divides the decimal
  · refine .inr ⟨rfl, ?_⟩
    obtain ⟨t, rfl⟩ := dvd_of_eq_exception heq
    simp only [exception] at *
    omega

end

end AgentGraph.Numeric
