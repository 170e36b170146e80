import ApiOutline.Endpoint.Basic

/-!
The names that are derived from an endpoint, and which of them tell endpoints apart.

Names are put together without separators, so different groups and endpoints can give the same name.
But the names of one endpoint are put together from the same parts, so where one of them repeats,
others repeat as well.
-/

namespace ApiOutline

/-- Only the first character is put in upper case, so what follows a name is kept. -/
theorem Ident.capitalize_append {s : String} (filled : s ≠ "") (t : String) :
    Ident.capitalize (s ++ t) = Ident.capitalize s ++ t := by
  apply String.toList_inj.1
  simp only [Ident.capitalize, String.toList_append, String.toList_ofList]
  cases whole : s.toList with
  | nil => exact absurd (String.toList_eq_nil_iff.1 whole) filled
  | cons c rest => simp only [List.cons_append, Text.upperFirst, List.append_assoc]

namespace Endpoint

/-- The names of the two models of an endpoint differ only in what they start with. -/
theorem requestModelName_eq_iff {a b : Endpoint} :
    a.requestModelName = b.requestModelName ↔
      Ident.capitalize a.group ++ a.apiName = Ident.capitalize b.group ++ b.apiName := by
  rw [requestModelName, requestModelName, String.append_assoc, String.append_assoc,
    String.append_right_inj]

/-- Two endpoints share the name of a response exactly if they share that of a request. -/
theorem responseModelName_eq_iff {a b : Endpoint} :
    a.responseModelName = b.responseModelName ↔ a.requestModelName = b.requestModelName := by
  rw [requestModelName_eq_iff, responseModelName, responseModelName, String.append_assoc,
    String.append_assoc, String.append_right_inj]

/-- No request has the name of a response, for the two start differently. -/
theorem requestModelName_ne_responseModelName (a b : Endpoint) :
    a.requestModelName ≠ b.responseModelName := by
  intro same
  have texts := congrArg String.toList same
  simp only [requestModelName, responseModelName, String.toList_append] at texts
  have third : some 'q' = some 's' := congrArg (·[2]?) texts
  cases third

/-- The name of the request can be told from the full name, for all that the full name does not tell
where the group ends. -/
theorem requestModelName_eq_capitalize {e : Endpoint} (filled : e.group ≠ "") :
    e.requestModelName = "Req" ++ Ident.capitalize e.fullName := by
  rw [fullName, Ident.capitalize_append filled, requestModelName, String.append_assoc]

/-- Two endpoints share a handler exactly if they have the same segments in a row. -/
theorem handlerName_eq_iff {a b : Endpoint} :
    a.handlerName = b.handlerName ↔ a.apiName = b.apiName := by
  rw [handlerName, handlerName, String.append_left_inj]

end Endpoint

end ApiOutline
