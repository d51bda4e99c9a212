import OperatorToolkit.Cert.Writer

/-!
# Provisioning certificates for webhooks

`Provision` ensures a valid certificate for the server name of a client config, adds its CA to the
CA bundle of the client config, and injects the bundle into webhook configurations and CRDs. The
Go code changes the objects in place; here they are returned.
-/

namespace OperatorToolkit.Cert

open Interaction Object

variable {Rest Err : Type}

/-- The common name of a k8s service. -/
def serviceToCommonName (serviceNamespace serviceName : String) : String :=
  serviceName ++ "." ++ serviceNamespace ++ ".svc"

def dnsNameFromClientConfig [StatusErrors Err] (std : Stdlib Err) (config : WebhookClientConfig) :
    Except (CertError Err) String :=
  match config.service, config.url with
  | some _, some _ => .error (.plain (errorf
      ("service and URL can't be set at the same time in a webhook: " ++
        std.formatClientConfig config)))
  | none, none => .error (.plain (errorf
      ("one of service and URL need to be set in a webhook: " ++ std.formatClientConfig config)))
  | some service, none => .ok (serviceToCommonName service.ns service.name)
  | none, some url =>
    match std.parseURLHost url with
    | .error err => .error (.plain err)
    | .ok urlHost =>
      match std.splitHostPort urlHost with
      | .error _ => .ok urlHost
      | .ok host => .ok host

/-! ## Injection -/

/-- Replaces the CA bundle only, to preserve the path in the client config. -/
def injectForWebhook (cc : WebhookClientConfig) (webhooks : List (Webhook Rest)) :
    List (Webhook Rest) :=
  webhooks.map fun wh ↦ { wh with clientConfig := { wh.clientConfig with caBundle := cc.caBundle } }

def injectForMutatingWebhook (cc : WebhookClientConfig) (webhooks : List (Webhook Rest)) :
    List (Webhook Rest) :=
  injectForWebhook cc webhooks

def injectForValidatingWebhook (cc : WebhookClientConfig) (webhooks : List (Webhook Rest)) :
    List (Webhook Rest) :=
  injectForWebhook cc webhooks

def injectForCRD (cc : WebhookClientConfig) (webhook : WebhookConversion Rest) :
    WebhookConversion Rest :=
  { webhook with clientConfig := webhook.clientConfig.map ({ · with caBundle := cc.caBundle }) }

/-- A CRD is injected into after its conversion webhook was found to be configured. -/
def injectObject [StatusErrors Err] (cc : WebhookClientConfig) :
    ClientObject Rest → Except (CertError Err) (ClientObject Rest)
  | .webhooks .mutating config => .ok (.webhooks .mutating
      { config with webhooks := injectForMutatingWebhook cc config.webhooks })
  | .webhooks .validating config => .ok (.webhooks .validating
      { config with webhooks := injectForValidatingWebhook cc config.webhooks })
  | .crd crd => .ok (.crd { crd with conversion := crd.conversion.map fun conversion ↦
      { conversion with webhook := conversion.webhook.map (injectForCRD cc) } })
  | .other gvk => .error (.plain (errorf
      (gvk ++ " is not supported for injecting a webhookClientConfig")))

/-- `inject`; the writer's own `Inject` does nothing. -/
def inject [StatusErrors Err] (cc : WebhookClientConfig) (objs : List (ClientObject Rest)) :
    Except (CertError Err) (List (ClientObject Rest)) :=
  objs.mapM (injectObject cc)

/-! ## Provision -/

structure Provisioner where
  certWriter : Option SecretCertWriter

/-- The end of `Provision`: whether anything changed, and the objects with the CA bundle. -/
def injectCerts [StatusErrors Err] (cc : WebhookClientConfig) (objs : List (ClientObject Rest))
    (certs : Artifacts) (changed : Bool) :
    Except (CertError Err) (Bool × List (ClientObject Rest)) :=
  if contains cc.caBundle certs.caCert then (inject cc objs).map (changed, ·)
  -- Ensure the CA bundle in the webhook configuration has the signing CA.
  else (inject { cc with caBundle := cc.caBundle ++ certs.caCert } objs).map (true, ·)

def Provisioner.provision [StatusErrors Err] (cp : Provisioner) (std : Stdlib Err)
    (cc : WebhookClientConfig) (objs : List (ClientObject Rest)) :
    Program (certCalls Rest Err) (Except (CertError Err) (Bool × List (ClientObject Rest))) :=
  match cp.certWriter with
  | none => return .error (.plain (errorf "CertWriter need to be set"))
  | some certWriter =>
    match dnsNameFromClientConfig std cc with
    | .error err => return .error err
    | .ok dnsName => do
      match ← certWriter.ensureCert std dnsName with
      | (.error err, _) => return .error err
      | (.ok certs, changed) => return injectCerts cc objs certs changed

end OperatorToolkit.Cert
