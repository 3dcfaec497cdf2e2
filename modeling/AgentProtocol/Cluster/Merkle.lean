-- SUMMARY: Bucketed Merkle digests of a version index: what equal bucket hashes prove, and which keys a comparison of buckets finds.
import AgentProtocol.Lib.Sha256
import AgentProtocol.Lib.Encoding
import AgentProtocol.Cluster.Envelope

/-!
# Merkle buckets

`cluster/merkle.py`, and the selection of keys that `ClusterStore.reconcile` makes
from two indexes. An index is cut into buckets by a hash of the key; a bucket is
identified by the hash of its sorted entries.

Bucket numbers and digests are kept as numbers and bytes. The source writes them
as decimal and hexadecimal strings, which only serves their way through JSON.
-/

namespace AgentProtocol

open Lib

/-- A version index: every record a node can answer for. -/
abbrev Index := Dict Key Version

namespace Merkle

/-- The unit separator. -/
def sep : Char := '\x1f'

def keyStr (key : Key) : String :=
  (String.singleton sep).intercalate [key.dataset, key.originId, key.serviceId]

def bucketOf (key : Key) (nBuckets : ℕ) : ℕ :=
  Sha256.ofBytes ((sha256 (utf8 (keyStr key))).take 4) % nBuckets

/-- The text that `_entry_digest` hashes. -/
def entryText (key : Key) (version : Version) : String :=
  keyStr key ++ String.singleton sep ++ Int.repr version.ms ++ String.singleton sep ++ version.node

def entryDigest (key : Key) (version : Version) : List UInt8 := sha256 (utf8 (entryText key version))

/-- Entries are sorted as the tuples they are in the source. -/
def sortKey (entry : Key × Version) : String ×ₗ String ×ₗ String ×ₗ Version :=
  toLex (entry.1.dataset, toLex (entry.1.originId, toLex (entry.1.serviceId, entry.2)))

def entryLe (p q : Key × Version) : Prop := sortKey p ≤ sortKey q

instance : DecidableRel entryLe := fun p q => inferInstanceAs (Decidable (sortKey p ≤ sortKey q))

/-- The bytes folded into the hash of a bucket with these entries. -/
def bucketInput (entries : List (Key × Version)) : List UInt8 :=
  ((entries.insertionSort entryLe).map fun p => entryDigest p.1 p.2).flatten

def bucketHashes (index : Index) (nBuckets : ℕ) : Dict ℕ (List UInt8) :=
  (Dict.groupBy (fun p => bucketOf p.1 nBuckets) index.rows).mapValues fun entries =>
    sha256 (bucketInput entries)

/-- The buckets present on either side whose hashes differ. -/
def differingBuckets (here there : Dict ℕ (List UInt8)) : List ℕ :=
  ((here.rows.map Prod.fst ++ there.rows.map Prod.fst).filter
    fun b => here.lookup b ≠ there.lookup b).dedup

/-- The rows of an index that fall into one of the buckets. -/
def inBuckets (index : Index) (nBuckets : ℕ) (buckets : List ℕ) : Index :=
  index.filter fun p => decide (bucketOf p.1 nBuckets ∈ buckets)

/-- The keys of `a` whose version there is newer than in `b`. -/
def newerKeys (a b : Index) : List Key :=
  (a.rows.filter fun p => versionNewer p.2 (b.lookup p.1)).map Prod.fst

/-! ## Assumptions -/

/-- No identifier in the index contains the separator. -/
def SepFree (index : Index) : Prop :=
  ∀ key version, index.lookup key = some version →
    sep ∉ key.dataset.toList ∧ sep ∉ key.originId.toList ∧ sep ∉ key.serviceId.toList ∧
      sep ∉ version.node.toList

def bucket (index : Index) (nBuckets b : ℕ) : List (Key × Version) :=
  index.rows.filter fun p => bucketOf p.1 nBuckets = b

/-- Everything that is hashed to digest an index. -/
def hashed (index : Index) (nBuckets : ℕ) : Set (List UInt8) :=
  { m | (∃ p ∈ index.rows, m = utf8 (entryText p.1 p.2)) ∨
    ∃ b, m = bucketInput (bucket index nBuckets b) }

/-- SHA-256 has no collision among what two nodes hash to compare their indexes. -/
def CollisionFree (here : Index) (nHere : ℕ) (there : Index) (nThere : ℕ) : Prop :=
  (hashed here nHere ∪ hashed there nThere).InjOn sha256

theorem CollisionFree.symm {here there : Index} {nHere nThere : ℕ}
    (h : CollisionFree here nHere there nThere) : CollisionFree there nThere here nHere := by
  rwa [CollisionFree, Set.union_comm]

variable {p : Key × Version} {index : Index}

theorem hashed_singleton (h : index.rows = [p]) {n : ℕ} {m : List UInt8} (hm : m ∈ hashed index n) :
    m = [] ∨ m = utf8 (entryText p.1 p.2) ∨ m = entryDigest p.1 p.2 := by
  rcases hm with ⟨q, hq, rfl⟩ | ⟨b, rfl⟩
  · rw [h, List.mem_singleton] at hq
    simp [hq]
  · by_cases hb : bucketOf p.1 n = b <;> simp [bucket, h, hb, bucketInput]

theorem collisionFree_of_singletons {here there : Index} {p q : Key × Version} (hp : here.rows = [p])
    (hq : there.rows = [q]) (nHere nThere : ℕ) (h : ([[], utf8 (entryText p.1 p.2), entryDigest p.1 p.2, utf8 (entryText q.1 q.2),
      entryDigest q.1 q.2].map sha256).Nodup) : CollisionFree here nHere there nThere := by
  have hmem : ∀ m ∈ hashed here nHere ∪ hashed there nThere, m ∈ [[], utf8 (entryText p.1 p.2),
      entryDigest p.1 p.2, utf8 (entryText q.1 q.2), entryDigest q.1 q.2] := by
    intro m hm
    rcases hm with hm | hm
    · rcases hashed_singleton hp hm with rfl | rfl | rfl <;> simp
    · rcases hashed_singleton hq hm with rfl | rfl | rfl <;> simp
  intro m hm m' hm' he
  exact List.inj_on_of_nodup_map h (hmem m hm) (hmem m' hm') he

theorem sepFree_of_singleton (h : index.rows = [p])
    (hp : sep ∉ p.1.dataset.toList ∧ sep ∉ p.1.originId.toList ∧ sep ∉ p.1.serviceId.toList ∧
      sep ∉ p.2.node.toList) : SepFree index := by
  intro key version hlook
  have hmem := Dict.lookup_eq_some.mp hlook
  rw [h, List.mem_singleton] at hmem
  subst hmem
  exact hp

/-! ## Entries are determined by their text -/

theorem entryText_eq (key : Key) (version : Version) : entryText key version = (String.singleton sep).intercalate
      [key.dataset, key.originId, key.serviceId, Int.repr version.ms, version.node] := by
  simp only [entryText, keyStr, String.intercalate_cons_cons, String.intercalate_singleton,
    String.append_assoc]

private theorem sep_fields (h : SepFree index) (hp : p ∈ index.rows) :
    ∀ x ∈ [p.1.dataset, p.1.originId, p.1.serviceId, Int.repr p.2.ms, p.2.node], sep ∉ x.toList := by
  obtain ⟨hds, ho, hs, hn⟩ := h p.1 p.2 (Dict.lookup_eq_some.mpr hp)
  have hms : sep ∉ (Int.repr p.2.ms).toList := notMem_toList_repr (by decide) (by decide) _
  simp [hds, ho, hs, hn, hms]

theorem entry_eq_of_text {here there : Index} (hhere : SepFree here) (hthere : SepFree there)
    {p q : Key × Version} (hp : p ∈ here.rows) (hq : q ∈ there.rows) (h : entryText p.1 p.2 = entryText q.1 q.2) : p = q := by
  rw [entryText_eq, entryText_eq] at h
  have hfields := intercalate_inj (sep_fields hhere hp) (sep_fields hthere hq) (by simp) (by simp) h
  simp only [List.cons.injEq, and_true] at hfields
  obtain ⟨hds, ho, hs, hms, hn⟩ := hfields
  have hkey : p.1 = q.1 := by
    cases hp1 : p.1
    cases hq1 : q.1
    simp_all
  exact Prod.ext hkey (Version.ext (Int.repr_injective hms) hn)

/-! ## Bucket hashes -/

theorem lookup_bucketHashes (index : Index) (n b : ℕ) : (bucketHashes index n).lookup b =
      if bucket index n b = [] then none else some (sha256 (bucketInput (bucket index n b))) := by
  rw [bucketHashes, Dict.lookup_mapValues, Dict.lookup_groupBy]
  by_cases h : bucket index n b = []
  · simp only [bucket] at h
    simp [bucket, h]
  · simp only [bucket] at h
    simp [bucket, h]

theorem mem_differingBuckets {here there : Dict ℕ (List UInt8)} {b : ℕ} :
    b ∈ differingBuckets here there ↔ here.lookup b ≠ there.lookup b := by
  simp only [differingBuckets, List.mem_dedup, List.mem_filter, List.mem_append, decide_eq_true_eq]
  refine ⟨fun h => h.2, fun h => ⟨?_, h⟩⟩
  -- A bucket absent on both sides has equal (empty) lookups.
  by_contra hmem
  have hno : ∀ d : Dict ℕ (List UInt8), b ∉ d.rows.map Prod.fst → d.lookup b = none := by
    intro d hd
    refine Dict.lookup_eq_none.mpr fun v hv => hd ?_
    exact List.mem_map.mpr ⟨(b, v), hv, rfl⟩
  rw [not_or] at hmem
  exact h (by rw [hno _ hmem.1, hno _ hmem.2])

theorem sortKey_injective : Function.Injective sortKey := by
  rintro ⟨⟨ds, o, s⟩, v⟩ ⟨⟨ds', o', s'⟩, v'⟩ h
  simp only [sortKey, EmbeddingLike.apply_eq_iff_eq, Prod.mk.injEq] at h
  simp [h]

instance : Std.Antisymm entryLe := ⟨fun _ _ h h' => sortKey_injective (le_antisymm h h')⟩

instance : IsTrans (Key × Version) entryLe := ⟨fun _ _ _ h h' => le_trans h h'⟩

instance : Std.Total entryLe := ⟨fun p q => le_total (sortKey p) (sortKey q)⟩

theorem bucketInput_perm {xs ys : List (Key × Version)} (h : xs.Perm ys) : bucketInput xs = bucketInput ys := by
  have hperm : (xs.insertionSort entryLe).Perm (ys.insertionSort entryLe) :=
    (List.perm_insertionSort entryLe xs).trans (h.trans (List.perm_insertionSort entryLe ys).symm)
  have hsorted : xs.insertionSort entryLe = ys.insertionSort entryLe :=
    hperm.eq_of_pairwise' (List.pairwise_insertionSort entryLe xs)
      (List.pairwise_insertionSort entryLe ys)
  rw [bucketInput, bucketInput, hsorted]

theorem bucket_nodup (index : Index) (n b : ℕ) : (bucket index n b).Nodup :=
  (List.Nodup.of_map _ index.nodup).filter _

theorem mem_bucket {n b : ℕ} : p ∈ bucket index n b ↔ index.lookup p.1 = some p.2 ∧ bucketOf p.1 n = b := by
  simp [bucket, Dict.lookup_eq_some]

theorem lookup_bucketHashes_congr {here there : Index} (n : ℕ) (h : ∀ key, here.lookup key = there.lookup key) (b : ℕ) :
    (bucketHashes here n).lookup b = (bucketHashes there n).lookup b := by
  have hperm : (bucket here n b).Perm (bucket there n b) := by
    refine (List.perm_ext_iff_of_nodup (bucket_nodup here n b) (bucket_nodup there n b)).mpr ?_
    intro p
    simp [mem_bucket, h]
  rw [lookup_bucketHashes, lookup_bucketHashes, bucketInput_perm hperm]
  simp only [← List.length_eq_zero_iff, hperm.length_eq]

private theorem length_of_mem_digests {entries : List (Key × Version)} :
    ∀ d ∈ entries.map fun p => entryDigest p.1 p.2, d.length = 32 := by
  intro d hd
  obtain ⟨p, -, rfl⟩ := List.mem_map.mp hd
  exact sha256_length _

section Comparison

variable {here there : Index} {nHere nThere : ℕ}
  (hcf : CollisionFree here nHere there nThere) (hhere : SepFree here) (hthere : SepFree there)

include hcf hhere hthere

private theorem entryDigest_inj {p q : Key × Version} (hp : p ∈ here.rows) (hq : q ∈ there.rows)
    (h : entryDigest p.1 p.2 = entryDigest q.1 q.2) : p = q := by
  have htext : utf8 (entryText p.1 p.2) = utf8 (entryText q.1 q.2) :=
    hcf (.inl (.inl ⟨p, hp, rfl⟩)) (.inr (.inl ⟨q, hq, rfl⟩)) h
  exact entry_eq_of_text hhere hthere hp hq (utf8_injective htext)

theorem mem_bucket_iff_of_hash_eq {b : ℕ} (h : (bucketHashes here nHere).lookup b = (bucketHashes there nThere).lookup b)
    (p : Key × Version) : p ∈ bucket here nHere b ↔ p ∈ bucket there nThere b := by
  rw [lookup_bucketHashes, lookup_bucketHashes] at h
  split at h
  · rename_i hnil
    split at h
    · rename_i hnil'
      rw [hnil, hnil']
    · cases h
  · split at h
    · cases h
    have hinput : bucketInput (bucket here nHere b) = bucketInput (bucket there nThere b) :=
      hcf (.inl (.inr ⟨b, rfl⟩)) (.inr (.inr ⟨b, rfl⟩)) (Option.some.inj h)
    have hdigests := flatten_inj_of_length (by decide) length_of_mem_digests
      length_of_mem_digests hinput
    have hsorted : (bucket here nHere b).insertionSort entryLe =
        (bucket there nThere b).insertionSort entryLe := by
      refine map_inj_of_forall (fun x hx y hy hxy => ?_) hdigests
      rw [List.mem_insertionSort] at hx hy
      exact entryDigest_inj hcf hhere hthere (List.mem_of_mem_filter hx) (List.mem_of_mem_filter hy) hxy
    rw [← List.mem_insertionSort entryLe, hsorted, List.mem_insertionSort]

/-- A key whose versions differ lies, on the side that has it, in a bucket that
differs. The other side may use another number of buckets. -/
theorem bucketOf_mem_differing {key : Key} {version : Version}
    (hkey : here.lookup key = some version) (hne : there.lookup key ≠ some version) :
    bucketOf key nHere ∈ differingBuckets (bucketHashes here nHere) (bucketHashes there nThere) := by
  rw [mem_differingBuckets]
  intro heq
  have hmem : (key, version) ∈ bucket here nHere (bucketOf key nHere) :=
    mem_bucket.mpr ⟨hkey, rfl⟩
  rw [mem_bucket_iff_of_hash_eq hcf hhere hthere heq] at hmem
  exact hne (mem_bucket.mp hmem).1

theorem lookup_eq_of_no_differing (h : differingBuckets (bucketHashes here nHere) (bucketHashes there nThere) = [])
    (key : Key) : here.lookup key = there.lookup key := by
  have heq : ∀ b, (bucketHashes here nHere).lookup b = (bucketHashes there nThere).lookup b := by
    intro b
    by_contra hne
    have hmem := mem_differingBuckets.mpr hne
    simp [h] at hmem
  apply Option.ext
  intro version
  refine ⟨fun hk => ?_, fun hk => ?_⟩
  · have hmem : (key, version) ∈ bucket here nHere (bucketOf key nHere) := mem_bucket.mpr ⟨hk, rfl⟩
    rw [mem_bucket_iff_of_hash_eq hcf hhere hthere (heq _)] at hmem
    exact (mem_bucket.mp hmem).1
  · have hmem : (key, version) ∈ bucket there nThere (bucketOf key nThere) := mem_bucket.mpr ⟨hk, rfl⟩
    rw [← mem_bucket_iff_of_hash_eq hcf hhere hthere (heq _)] at hmem
    exact (mem_bucket.mp hmem).1

end Comparison

/-! ## Selecting keys -/

theorem mem_newerKeys {a b : Index} {key : Key} :
    key ∈ newerKeys a b ↔ ∃ v, a.lookup key = some v ∧ versionNewer v (b.lookup key) = true := by
  simp only [newerKeys, List.mem_map, List.mem_filter, Dict.lookup_eq_some]
  refine ⟨?_, ?_⟩
  · intro h
    obtain ⟨p, ⟨hp, hnew⟩, rfl⟩ := h
    exact ⟨p.2, hp, hnew⟩
  · intro h
    obtain ⟨v, hv, hnew⟩ := h
    exact ⟨(key, v), ⟨hv, hnew⟩, rfl⟩

theorem newerKeys_nodup (a b : Index) : (newerKeys a b).Nodup :=
  a.nodup.sublist (List.filter_sublist.map Prod.fst)

theorem lookup_inBuckets {n : ℕ} {buckets : List ℕ} {key : Key} : (inBuckets index n buckets).lookup key =
      if bucketOf key n ∈ buckets then index.lookup key else none := by
  rw [inBuckets, Dict.lookup_filter]
  cases index.lookup key with
  | none => simp
  | some v => by_cases h : bucketOf key n ∈ buckets <;> simp [Option.filter, h]

private theorem ne_of_versionNewer {v : Version} {w : Option Version} (h : versionNewer v w = true) : w ≠ some v := by
  intro hw
  subst hw
  exact lt_irrefl v (Lww.newer_some.mp h)

section Selection

variable {a b : Index} {nA nB : ℕ}
  (hcf : CollisionFree a nA b nB) (ha : SepFree a) (hb : SepFree b)

include hcf ha hb

/-- Restricting both sides to buckets that include the differing ones loses no key
that is newer on one side, whatever the two numbers of buckets are. -/
theorem newerKeys_subset_inBuckets {buckets : List ℕ} {key : Key}
    (hbuckets : ∀ i, (bucketHashes a nA).lookup i ≠ (bucketHashes b nB).lookup i → i ∈ buckets)
    (h : key ∈ newerKeys a b) : key ∈ newerKeys (inBuckets a nA buckets) (inBuckets b nB buckets) := by
  obtain ⟨v, hv, hnew⟩ := mem_newerKeys.mp h
  have hdiffers := bucketOf_mem_differing hcf ha hb hv (ne_of_versionNewer hnew)
  have hbucket := hbuckets _ (mem_differingBuckets.mp hdiffers)
  refine mem_newerKeys.mpr ⟨v, by rw [lookup_inBuckets, if_pos hbucket, hv], ?_⟩
  rw [lookup_inBuckets]
  split
  · exact hnew
  · rfl

omit hcf ha hb in
theorem newerKeys_inBuckets_subset {n : ℕ} {buckets : List ℕ} {key : Key}
    (h : key ∈ newerKeys (inBuckets a n buckets) (inBuckets b n buckets)) : key ∈ newerKeys a b := by
  obtain ⟨v, hv, hnew⟩ := mem_newerKeys.mp h
  rw [lookup_inBuckets] at hv hnew
  split at hv
  · rename_i hbucket
    rw [if_pos hbucket] at hnew
    exact mem_newerKeys.mpr ⟨v, hv, hnew⟩
  · cases hv

end Selection

end Merkle

end AgentProtocol
