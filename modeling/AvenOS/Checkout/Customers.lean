import AvenOS.Foundations.KeyedTable

/-! # Customers of the checkout -/
namespace AvenOS.Checkout
open KeyedTable

/-- A row of `checkout_customers`. -/
structure CheckoutCustomer where
  subjectId : String
  email : String
deriving DecidableEq, Repr

/-- `INSERT INTO checkout_customers ... ON CONFLICT(subject_id) DO UPDATE`; an address that another subject has
breaks the other constraint of the table. -/
def upsertCheckoutCustomer (customers : List CheckoutCustomer) (customer : CheckoutCustomer) :
    Option (List CheckoutCustomer) :=
  if customers.any fun other => other.email = customer.email && other.subjectId ≠ customer.subjectId then none
  else if customers.any (·.subjectId = customer.subjectId) then
    some (modify CheckoutCustomer.subjectId customer.subjectId (fun _ => customer) customers)
  else some (customers ++ [customer])

end AvenOS.Checkout
